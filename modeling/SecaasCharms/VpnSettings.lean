import SecaasCharms.ShellOptions
import SecaasCharms.TextWords

/-!
# The settings of the OpenVPN server

`ovpn_genconfig` starts from what an earlier call saved, reads its options
over it, takes the server's address apart and fills in defaults.  List options
add to what is there.  So later calls refine earlier ones, and the theorem on
two calls says when they leave what one call with both option lists leaves.
-/

namespace SecaasCharms.OpenVpn

open ShellOptions
open TextLines

/-- The `OVPN_` variables, with the values the script starts from. -/
structure Settings where
  auth : Text := []
  cipher : Text := []
  clientToClient : Bool := false
  cn : Text := []
  compLzo : Bool := false
  defroute : Bool := true
  device : Text := "tun".toList
  disablePushBlockDns : Bool := false
  dns : Bool := true
  dnsServers : List Text := []
  extraClientConfig : List Text := []
  extraServerConfig : List Text := []
  fragment : Text := []
  keepalive : Text := "10 60".toList
  mtu : Text := []
  nat : Bool := false
  otpAuth : Bool := false
  port : Text := []
  proto : Text := []
  push : List Text := []
  routes : List Text := []
  server : Text := "192.168.255.0/24".toList
  serverUrl : Text := []
  tlsCipher : Text := []
  deriving DecidableEq

/-! ## Options -/

def optionKind : Char → Kind :=
  Kind.ofString "a:e:E:C:T:r:s:du:bcp:n:k:DNm:f:tz2".toList

/-- `mapfile -t` on the value of a list option. -/
def mapfile (argument : Text) : List Text := argument.splitOn '\n'

/-- One branch of the `case`; the last two exit. -/
def Settings.readOption (settings : Settings) : Reading → Option Settings
  | .value 'a' argument => some { settings with auth := argument }
  | .value 'e' argument =>
      some { settings with
        extraServerConfig := settings.extraServerConfig ++ mapfile argument }
  | .value 'E' argument =>
      some { settings with
        extraClientConfig := settings.extraClientConfig ++ mapfile argument }
  | .value 'C' argument => some { settings with cipher := argument }
  | .value 'T' argument => some { settings with tlsCipher := argument }
  | .value 'r' argument =>
      some { settings with routes := settings.routes ++ mapfile argument }
  | .value 's' argument => some { settings with server := argument }
  | .flag 'd' =>
      some { settings with defroute := false, disablePushBlockDns := true }
  | .value 'u' argument => some { settings with serverUrl := argument }
  | .flag 'b' => some { settings with disablePushBlockDns := true }
  | .flag 'c' => some { settings with clientToClient := true }
  | .value 'p' argument =>
      some { settings with push := settings.push ++ mapfile argument }
  | .value 'n' argument =>
      some { settings with
        dnsServers := settings.dnsServers ++ mapfile argument }
  | .flag 'D' => some { settings with dns := false }
  | .flag 'N' => some { settings with nat := true }
  | .value 'k' argument => some { settings with keepalive := argument }
  | .value 'm' argument => some { settings with mtu := argument }
  | .flag 't' => some { settings with device := "tap".toList }
  | .flag 'z' => some { settings with compLzo := true }
  | .flag '2' => some { settings with otpAuth := true }
  | .value 'f' argument => some { settings with fragment := argument }
  | .flag _ => some settings
  | .value _ _ => some settings
  | .invalid _ => none
  | .missing _ => none

/-! ## The server's address -/

def schemes : List Text :=
  ["udp".toList, "tcp".toList, "udp6".toList, "tcp6".toList]

def isHostChar (c : Char) : Bool :=
  c.isAlphanum || c = '.' || c = '-'

structure ServerUrl where
  proto : Text
  cn : Text
  port : Text
  deriving DecidableEq

def splitScheme (url : Text) : Text × Text :=
  match schemes.find? (fun scheme => (scheme ++ "://".toList).isPrefixOf url)
    with
  | some scheme => (scheme, url.drop (scheme ++ "://".toList).length)
  | none => ([], url)

/-- What the regular expression captures; a group that takes no part is
empty. -/
def matchUrl (url : Text) : Option ServerUrl :=
  let (proto, address) := splitScheme url
  let (cn, tail) := address.span isHostChar
  if cn = [] then none
  else
    match tail with
    | [] => some ⟨proto, cn, []⟩
    | ':' :: port =>
        if port ≠ [] ∧ port.all Char.isDigit then some ⟨proto, cn, port⟩
        else none
    | _ :: _ => none

/-! ## Saving -/

def Settings.withUrl (settings : Settings) (url : ServerUrl) : Settings :=
  { settings with proto := url.proto, cn := url.cn, port := url.port }

def googleDns : List Text := ["8.8.8.8".toList, "8.8.4.4".toList]

def defaultRoute : Text := "192.168.254.0/24".toList

/-- An array in a test stands for its first element. -/
def defaultServers (servers : List Text) : List Text :=
  if servers.headD [] = [] then googleDns else servers

def defaultRoutes (defroute : Bool) (routes : List Text) : List Text :=
  if routes = [] ∧ defroute = true then [defaultRoute] else routes

def Settings.applyDefaults (settings : Settings) : Settings :=
  { settings with
    dnsServers := defaultServers settings.dnsServers
    proto := if settings.proto = [] then "udp".toList else settings.proto
    port := if settings.port = [] then "1194".toList else settings.port
    routes := defaultRoutes settings.defroute settings.routes }

def Settings.finish (settings : Settings) : Option Settings :=
  (matchUrl settings.serverUrl).map
    (fun url => (settings.withUrl url).applyDefaults)

def Settings.configure (settings : Settings) (readings : List Reading) :
    Option Settings :=
  (readings.foldlM Settings.readOption settings).bind Settings.finish

/-- The settings that a call saves, over those that an earlier one saved. -/
def nextSettings (saved : Option Settings) (arguments : List Text) :
    Option Settings :=
  (saved.getD {}).configure (getopts optionKind arguments).1

/-! ## Which addresses are accepted -/

structure ServerUrl.WellFormed (url : ServerUrl) : Prop where
  proto : url.proto = [] ∨ url.proto ∈ schemes
  cn_ne : url.cn ≠ []
  cn : ∀ c ∈ url.cn, isHostChar c = true
  port : ∀ c ∈ url.port, c.isDigit = true

def ServerUrl.address (url : ServerUrl) : Text :=
  url.cn ++ (if url.port = [] then [] else ':' :: url.port)

def ServerUrl.text (url : ServerUrl) : Text :=
  (if url.proto = [] then [] else url.proto ++ "://".toList) ++ url.address

theorem ServerUrl.WellFormed.slash_not_mem {url : ServerUrl}
    (hurl : url.WellFormed) : '/' ∉ url.address := by
  intro hslash
  unfold ServerUrl.address at hslash
  rw [List.mem_append] at hslash
  cases hslash with
  | inl hcn => exact absurd (hurl.cn '/' hcn) (by decide)
  | inr htail =>
      split at htail
      · exact absurd htail List.not_mem_nil
      · rcases List.mem_cons.mp htail with hcolon | hport
        · exact absurd hcolon (by decide)
        · exact absurd (hurl.port '/' hport) (by decide)

theorem scheme_unique : ∀ left ∈ schemes, ∀ right ∈ schemes,
    left ++ "://".toList <+: right ++ "://".toList → left = right := by
  decide

theorem splitScheme_of_mem {scheme : Text} (hscheme : scheme ∈ schemes)
    (address : Text) :
    splitScheme (scheme ++ "://".toList ++ address) = (scheme, address) := by
  have hfirst : schemes.find? (fun other => (other ++ "://".toList).isPrefixOf
      (scheme ++ "://".toList ++ address)) = some scheme := by
    cases hfound : schemes.find? (fun other =>
        (other ++ "://".toList).isPrefixOf
          (scheme ++ "://".toList ++ address)) with
    | none =>
        refine absurd ?_ (List.find?_eq_none.mp hfound scheme hscheme)
        exact List.isPrefixOf_iff_prefix.mpr (List.prefix_append _ _)
    | some other =>
        have hstarts := List.find?_some hfound
        have hother := List.isPrefixOf_iff_prefix.mp hstarts
        have hmem := List.mem_of_find?_eq_some hfound
        rcases List.prefix_or_prefix_of_prefix hother
            (List.prefix_append (scheme ++ "://".toList) address)
          with hshort | hlong
        · rw [scheme_unique other hmem scheme hscheme hshort]
        · rw [scheme_unique scheme hscheme other hmem hlong]
  unfold splitScheme
  rw [hfirst]
  exact congrArg (Prod.mk scheme) List.drop_left

theorem splitScheme_of_slash_not_mem {address : Text}
    (haddress : '/' ∉ address) : splitScheme address = ([], address) := by
  have hnone : schemes.find? (fun scheme =>
      (scheme ++ "://".toList).isPrefixOf address) = none := by
    rw [List.find?_eq_none]
    intro scheme hscheme hstart
    have hsubset := (List.isPrefixOf_iff_prefix.mp hstart).subset
    exact haddress (hsubset (List.mem_append_right scheme (by decide)))
  unfold splitScheme
  rw [hnone]

theorem splitScheme_spec (text : Text) :
    ((splitScheme text).1 = [] ∨ (splitScheme text).1 ∈ schemes) ∧
      text = (if (splitScheme text).1 = [] then []
        else (splitScheme text).1 ++ "://".toList) ++ (splitScheme text).2 := by
  unfold splitScheme
  split
  case h_1 scheme hfound =>
    have hscheme := List.mem_of_find?_eq_some hfound
    have hne : scheme ≠ [] := by
      intro hempty
      rw [hempty] at hscheme
      exact absurd hscheme (by decide)
    have hstarts := List.find?_some hfound
    refine ⟨Or.inr hscheme, ?_⟩
    rw [if_neg hne]
    exact (List.prefix_iff_eq_append.mp
      (List.isPrefixOf_iff_prefix.mp hstarts)).symm
  case h_2 => exact ⟨Or.inl rfl, rfl⟩

theorem ServerUrl.WellFormed.splitScheme_text {url : ServerUrl}
    (hurl : url.WellFormed) :
    splitScheme url.text = (url.proto, url.address) := by
  by_cases hproto : url.proto = []
  · have htext : url.text = url.address := by simp [ServerUrl.text, hproto]
    rw [htext, hproto]
    exact splitScheme_of_slash_not_mem hurl.slash_not_mem
  · have htext : url.text = url.proto ++ "://".toList ++ url.address := by
      simp [ServerUrl.text, hproto]
    rw [htext]
    exact splitScheme_of_mem (hurl.proto.resolve_left hproto) _

/-- The expression accepts exactly the addresses that can be written with an
optional scheme, a host and an optional port, and takes them apart again. -/
theorem matchUrl_eq_some_iff {text : Text} {url : ServerUrl} :
    matchUrl text = some url ↔ url.WellFormed ∧ text = url.text := by
  constructor
  · intro hmatch
    have hscheme := splitScheme_spec text
    unfold matchUrl at hmatch
    simp only [List.span_eq_takeWhile_dropWhile] at hmatch
    have hsplit : (splitScheme text).2.takeWhile isHostChar ++
        (splitScheme text).2.dropWhile isHostChar = (splitScheme text).2 :=
      List.takeWhile_append_dropWhile
    have hhost : ∀ c ∈ (splitScheme text).2.takeWhile isHostChar,
        isHostChar c = true := fun c hc => List.mem_takeWhile_imp hc
    by_cases hcn : (splitScheme text).2.takeWhile isHostChar = []
    · rw [if_pos hcn] at hmatch
      cases hmatch
    · rw [if_neg hcn] at hmatch
      split at hmatch
      case h_1 htail =>
        cases hmatch
        refine ⟨⟨hscheme.1, hcn, hhost, by simp⟩, ?_⟩
        rw [htail, List.append_nil] at hsplit
        simpa [ServerUrl.text, ServerUrl.address, hsplit] using hscheme.2
      case h_2 port htail =>
        by_cases hport : port ≠ [] ∧ port.all Char.isDigit = true
        · rw [if_pos hport] at hmatch
          cases hmatch
          refine ⟨⟨hscheme.1, hcn, hhost, List.all_eq_true.mp hport.2⟩, ?_⟩
          rw [htail] at hsplit
          simpa [ServerUrl.text, ServerUrl.address, hport.1, hsplit]
            using hscheme.2
        · rw [if_neg hport] at hmatch
          cases hmatch
      case h_3 => cases hmatch
  · rintro ⟨hurl, rfl⟩
    unfold matchUrl
    rw [hurl.splitScheme_text]
    unfold ServerUrl.address
    by_cases hport : url.port = []
    · have hstop : ∀ c ∈ ([] : Text).head?, isHostChar c = false :=
        fun c hc => by cases hc
      have hspan := TextWords.span_of_stop hurl.cn hstop
      simp only [hport, if_true, hspan, if_neg hurl.cn_ne]
      rw [← hport]
    · have hstop : ∀ c ∈ (':' :: url.port).head?, isHostChar c = false :=
        fun c hc => by cases hc; rfl
      have hspan := TextWords.span_of_stop hurl.cn hstop
      have hdigits : url.port ≠ [] ∧ url.port.all Char.isDigit = true :=
        ⟨hport, List.all_eq_true.mpr hurl.port⟩
      simp only [hport, if_false, hspan, if_neg hurl.cn_ne]
      exact if_pos hdigits

/-! ## What the options add -/

def addedServers : Reading → List Text
  | .value 'n' argument => mapfile argument
  | _ => []

def addedRoutes : Reading → List Text
  | .value 'r' argument => mapfile argument
  | _ => []

/-- Reading options adds to the two lists that have defaults, and only `-d`
drops the default route. -/
structure Settings.ReadsTo (settings : Settings) (readings : List Reading)
    (read : Settings) : Prop where
  dnsServers :
    read.dnsServers = settings.dnsServers ++ readings.flatMap addedServers
  routes : read.routes = settings.routes ++ readings.flatMap addedRoutes
  defroute_iff : read.defroute = true ↔
    settings.defroute = true ∧ .flag 'd' ∉ readings

theorem Settings.readsTo_readOption {settings read : Settings}
    {reading : Reading} (hread : settings.readOption reading = some read) :
    settings.ReadsTo [reading] read := by
  unfold Settings.readOption at hread
  split at hread
  all_goals cases hread
  all_goals constructor
  all_goals simp_all [addedServers, addedRoutes]
  exact fun _ hd => absurd hd.symm ‹¬ (_ : Char) = 'd'›

theorem Settings.readsTo_foldlM {settings read : Settings}
    {readings : List Reading}
    (hread : readings.foldlM Settings.readOption settings = some read) :
    settings.ReadsTo readings read := by
  induction readings generalizing settings with
  | nil =>
      cases hread
      constructor <;> simp
  | cons reading readings ih =>
      rw [List.foldlM_cons, Option.bind_eq_bind, Option.bind_eq_some_iff]
        at hread
      rcases hread with ⟨next, hnext, hrest⟩
      have hfirst := settings.readsTo_readOption hnext
      have hlast := ih hrest
      constructor
      · rw [hlast.dnsServers, hfirst.dnsServers]
        simp
      · rw [hlast.routes, hfirst.routes]
        simp
      · rw [hlast.defroute_iff, hfirst.defroute_iff]
        simp [and_assoc]

theorem mapfile_ne_nil (argument : Text) : mapfile argument ≠ [] :=
  List.splitOn_ne_nil _ _

theorem flatMap_addedServers_eq_nil_iff {readings : List Reading} :
    readings.flatMap addedServers = [] ↔
      ∀ argument, .value 'n' argument ∉ readings := by
  rw [List.flatMap_eq_nil_iff]
  constructor
  · intro hnone argument hargument
    exact mapfile_ne_nil argument (hnone _ hargument)
  · intro hnone reading hreading
    unfold addedServers
    split
    · exact absurd hreading (hnone _)
    · rfl

theorem flatMap_addedRoutes_eq_nil_iff {readings : List Reading} :
    readings.flatMap addedRoutes = [] ↔
      ∀ argument, .value 'r' argument ∉ readings := by
  rw [List.flatMap_eq_nil_iff]
  constructor
  · intro hnone argument hargument
    exact mapfile_ne_nil argument (hnone _ hargument)
  · intro hnone reading hreading
    unfold addedRoutes
    split
    · exact absurd hreading (hnone _)
    · rfl

/-! ## Two calls and one -/

/-- The settings with another address, and with lists that begin
otherwise. -/
def Settings.rebase (settings : Settings) (url : ServerUrl)
    (servers routes : List Text) : Settings :=
  { settings.withUrl url with
    dnsServers := servers ++ settings.dnsServers
    routes := routes ++ settings.routes }

/-- No option reads what `rebase` changes. -/
theorem Settings.readOption_rebase (settings : Settings) (url : ServerUrl)
    (servers routes : List Text) (reading : Reading) :
    (settings.rebase url servers routes).readOption reading =
      (settings.readOption reading).map
        (fun read => read.rebase url servers routes) := by
  unfold Settings.readOption Settings.rebase Settings.withUrl
  split <;> simp

theorem Settings.foldlM_rebase (settings : Settings) (url : ServerUrl)
    (servers routes : List Text) (readings : List Reading) :
    readings.foldlM Settings.readOption
        (settings.rebase url servers routes) =
      (readings.foldlM Settings.readOption settings).map
        (fun read => read.rebase url servers routes) := by
  induction readings generalizing settings with
  | nil => rfl
  | cons reading readings ih =>
      rw [List.foldlM_cons, List.foldlM_cons, settings.readOption_rebase]
      cases settings.readOption reading with
      | none => rfl
      | some read => exact ih read

/-- The settings before the lists that have defaults are filled. -/
def Settings.bare (settings : Settings) : Settings :=
  { settings with dnsServers := [], routes := [] }

theorem Settings.rebase_bare (settings : Settings) (url : ServerUrl)
    (servers routes : List Text) :
    settings.bare.rebase url servers routes =
      { settings.withUrl url with dnsServers := servers, routes := routes } := by
  simp [Settings.bare, Settings.rebase, Settings.withUrl]

def Settings.url (settings : Settings) : ServerUrl :=
  ⟨settings.proto, settings.cn, settings.port⟩

theorem Settings.bare_rebase_self (settings : Settings) :
    settings.bare.rebase settings.url settings.dnsServers settings.routes =
      settings := by
  rw [settings.rebase_bare]
  rfl

theorem Settings.finish_eq_some_iff {settings saved : Settings} :
    settings.finish = some saved ↔
      ∃ url, matchUrl settings.serverUrl = some url ∧
        saved = (settings.withUrl url).applyDefaults := by
  unfold Settings.finish
  rw [Option.map_eq_some_iff]
  simp only [eq_comm (a := saved)]

theorem Settings.bare_rebase_applyDefaults (settings : Settings)
    (url : ServerUrl) :
    settings.bare.rebase (settings.withUrl url).applyDefaults.url
        (defaultServers settings.dnsServers)
        (defaultRoutes settings.defroute settings.routes) =
      (settings.withUrl url).applyDefaults := by
  rw [settings.rebase_bare]
  rfl

theorem defaultServers_append_eq_iff (servers added : List Text) :
    defaultServers (defaultServers servers ++ added) =
        defaultServers (servers ++ added) ↔
      (servers.headD [] = [] → added = []) := by
  by_cases hempty : servers.headD [] = []
  · have hgoogle : defaultServers servers = googleDns := if_pos hempty
    have hkept : defaultServers (googleDns ++ added) = googleDns ++ added :=
      if_neg (by simp [googleDns])
    rw [hgoogle, hkept, forall_prop_of_true hempty]
    constructor
    · intro hsame
      cases servers with
      | nil =>
          by_cases hadded : added.headD [] = []
          · have hboth : defaultServers ([] ++ added) = googleDns :=
              if_pos hadded
            rw [hboth] at hsame
            exact List.append_right_eq_self.mp hsame
          · have hboth : defaultServers ([] ++ added) = added := if_neg hadded
            rw [hboth] at hsame
            have hlength := congrArg List.length hsame
            rw [List.length_append] at hlength
            exact absurd hlength (by simp [googleDns])
      | cons first servers =>
          have hboth : defaultServers (first :: servers ++ added) = googleDns :=
            if_pos hempty
          rw [hboth] at hsame
          exact List.append_right_eq_self.mp hsame
    · intro hadded
      rw [hadded, List.append_nil, List.append_nil, hgoogle]
  · have hkept : defaultServers servers = servers := if_neg hempty
    rw [hkept]
    exact iff_of_true rfl (fun h => absurd h hempty)

theorem defaultRoutes_append_eq_iff (before after : Bool)
    (routes added : List Text) :
    defaultRoutes after (defaultRoutes before routes ++ added) =
        defaultRoutes after (routes ++ added) ↔
      (routes = [] → before = true → added = [] ∧ after = true) := by
  by_cases hdefault : routes = [] ∧ before = true
  · have hone : defaultRoutes before routes = [defaultRoute] :=
      if_pos hdefault
    have hkept : defaultRoutes after ([defaultRoute] ++ added) =
        [defaultRoute] ++ added := if_neg (by simp)
    rw [hone, hkept, hdefault.1, forall_prop_of_true rfl,
      forall_prop_of_true hdefault.2, List.nil_append]
    by_cases hadded : added = [] ∧ after = true
    · have hsame : defaultRoutes after added = [defaultRoute] := if_pos hadded
      rw [hsame, hadded.1]
      exact iff_of_true rfl ⟨rfl, hadded.2⟩
    · have hsame : defaultRoutes after added = added := if_neg hadded
      rw [hsame]
      refine iff_of_false ?_ hadded
      intro hequal
      exact absurd (congrArg List.length hequal) (by simp)
  · have hkept : defaultRoutes before routes = routes := if_neg hdefault
    rw [hkept]
    exact iff_of_true rfl
      (fun hroutes hbefore => absurd ⟨hroutes, hbefore⟩ hdefault)

theorem Settings.rebase_applyDefaults_eq_iff (settings : Settings)
    {first second url : ServerUrl} {left right leftRoutes rightRoutes : List Text} :
    ((settings.rebase first left leftRoutes).withUrl url).applyDefaults =
        ((settings.rebase second right rightRoutes).withUrl url).applyDefaults ↔
      defaultServers (left ++ settings.dnsServers) =
          defaultServers (right ++ settings.dnsServers) ∧
        defaultRoutes settings.defroute (leftRoutes ++ settings.routes) =
          defaultRoutes settings.defroute (rightRoutes ++ settings.routes) := by
  constructor
  · intro hequal
    exact ⟨congrArg Settings.dnsServers hequal,
      congrArg Settings.routes hequal⟩
  · intro hequal
    simp only [Settings.rebase, Settings.withUrl, Settings.applyDefaults,
      hequal.1, hequal.2]
    rfl

/-- A second accepted call leaves what one call with both option lists
leaves, unless it adds to a list that the first call filled with a default,
or takes back the default route. -/
theorem configure_append_iff {settings read saved final : Settings}
    {first later : List Reading}
    (hread : first.foldlM Settings.readOption settings = some read)
    (hsaved : read.finish = some saved)
    (hlater : saved.configure later = some final) :
    settings.configure (first ++ later) = some final ↔
      (read.dnsServers.headD [] = [] →
        ∀ argument, .value 'n' argument ∉ later) ∧
      (read.routes = [] → read.defroute = true →
        (∀ argument, .value 'r' argument ∉ later) ∧ .flag 'd' ∉ later) := by
  rcases Settings.finish_eq_some_iff.mp hsaved with ⟨url, -, hurl⟩
  unfold Settings.configure at hlater ⊢
  rw [hurl, ← read.bare_rebase_applyDefaults url, Settings.foldlM_rebase]
    at hlater
  have hone : (first ++ later).foldlM Settings.readOption settings =
      (later.foldlM Settings.readOption read.bare).map
        (fun rest => rest.rebase read.url read.dnsServers read.routes) := by
    rw [List.foldlM_append, hread, ← Settings.foldlM_rebase,
      read.bare_rebase_self]
    rfl
  rw [hone]
  cases hrest : later.foldlM Settings.readOption read.bare with
  | none =>
      rw [hrest] at hlater
      cases hlater
  | some rest =>
      have hreads := Settings.readsTo_foldlM hrest
      have hservers : rest.dnsServers = later.flatMap addedServers :=
        hreads.dnsServers
      have hroutes : rest.routes = later.flatMap addedRoutes := hreads.routes
      have hdefroute : rest.defroute = true ↔
          read.defroute = true ∧ .flag 'd' ∉ later := hreads.defroute_iff
      rw [hrest] at hlater
      rcases Settings.finish_eq_some_iff.mp hlater with
        ⟨last, hlast, hfinal⟩
      have hfinish : (rest.rebase read.url read.dnsServers read.routes).finish =
          some (((rest.rebase read.url read.dnsServers read.routes).withUrl
            last).applyDefaults) :=
        Settings.finish_eq_some_iff.mpr ⟨last, hlast, rfl⟩
      rw [Option.map_some, Option.bind_some, hfinish, Option.some_inj, hfinal,
        eq_comm, Settings.rebase_applyDefaults_eq_iff,
        defaultServers_append_eq_iff, defaultRoutes_append_eq_iff, hservers,
        hroutes, flatMap_addedServers_eq_nil_iff,
        flatMap_addedRoutes_eq_nil_iff, hdefroute]
      refine and_congr_right (fun _ => ?_)
      refine forall_congr' (fun _ => forall_congr' (fun hbefore => ?_))
      rw [and_iff_right hbefore]

theorem configure_append_iff_compressed :
    ∃ read saved final : Settings,
      (({} : Settings).configure
          ([.value 'u' "a".toList] ++ [.flag 'z']) = some final ↔
        (read.dnsServers.headD [] = [] →
          ∀ argument, Reading.value 'n' argument ∉ [Reading.flag 'z']) ∧
        (read.routes = [] → read.defroute = true →
          (∀ argument, Reading.value 'r' argument ∉ [Reading.flag 'z']) ∧
            Reading.flag 'd' ∉ [Reading.flag 'z'])) ∧
        read.finish = some saved :=
  ⟨_, _, _, configure_append_iff rfl rfl rfl, rfl⟩

/-! ## One address after another -/

/-- The settings for another address. -/
def Settings.moved (settings : Settings) (text : Text) (url : ServerUrl) :
    Settings :=
  (({ settings with serverUrl := text }).withUrl url).applyDefaults

theorem getopts_url (text : Text) :
    getopts optionKind ["-u".toList, text] = ([.value 'u' text], []) := by
  have hknown : ∀ reading ∈ [Reading.value 'u' text],
      reading.Known optionKind := by
    intro reading hreading
    rw [List.mem_singleton] at hreading
    rw [hreading]
    exact .value (by decide) (by decide) text
  exact getopts_of_known hknown []

theorem nextSettings_url (saved : Option Settings) (text : Text) :
    nextSettings saved ["-u".toList, text] =
      (matchUrl text).map ((saved.getD {}).moved text) := by
  rw [nextSettings, getopts_url]
  rfl

/-- Only the last address counts. -/
theorem Settings.moved_moved (settings : Settings) (first second : Text)
    (url next : ServerUrl) :
    (settings.moved first url).moved second next =
      settings.moved second next := by
  have hservers := (defaultServers_append_eq_iff settings.dnsServers []).mpr
    (fun _ => rfl)
  have hroutes := (defaultRoutes_append_eq_iff settings.defroute
    settings.defroute settings.routes []).mpr (fun _ hdefroute =>
      ⟨rfl, hdefroute⟩)
  rw [List.append_nil, List.append_nil] at hservers hroutes
  simp only [Settings.moved, Settings.withUrl, Settings.applyDefaults, hservers,
    hroutes]
  rfl

/-- Saved settings need no option to be accepted again, and stay as they
are. -/
theorem nextSettings_nil {saved : Option Settings} {arguments : List Text}
    {settings : Settings} (hsaved : nextSettings saved arguments = some settings) :
    nextSettings (some settings) [] = some settings := by
  rcases Option.bind_eq_some_iff.mp hsaved with ⟨read, -, hfinish⟩
  rcases Settings.finish_eq_some_iff.mp hfinish with ⟨url, hurl, hsettings⟩
  have hmoved : settings = read.moved read.serverUrl url := hsettings
  have hagain : settings.moved settings.serverUrl url = settings := by
    rw [hmoved, Settings.moved_moved]
    rfl
  refine Settings.finish_eq_some_iff.mpr ⟨url, ?_, hagain.symm⟩
  rw [hsettings]
  exact hurl

end SecaasCharms.OpenVpn
