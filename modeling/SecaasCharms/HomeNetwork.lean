import SecaasCharms.CharmActions

/-!
# The home network of the intrusion detection charms

`start-configuration` reads the addresses of the host from `hostname -I` and
computes the list for `HOME_NET`.  The loop removes and overwrites elements
of the list it iterates over.
-/

namespace SecaasCharms

open TextLines

/-- An address as `hostname -I` prints it: no blank and no line boundary. -/
def isAddressChar (c : Char) : Bool :=
  !(c == ' ' || isLineBoundary c)

abbrev Address := Token isAddressChar

/-- Each address is followed by a blank, and the last blank by a newline. -/
def hostnameOutput (addresses : List Address) : Text :=
  (addresses.map Token.text).flatMap (fun address => address ++ [' ']) ++
    ['\n']

/-- `ipaddress[0] + "." + ipaddress[1] + "." + ipaddress[2] + "." + "0" +
"/24"`. -/
def maskAddress (value : Text) : Except Text Text :=
  match value.splitOn '.' with
  | first :: second :: third :: _ =>
      .ok (first ++ ".".toList ++ second ++ ".".toList ++ third ++
        ".".toList ++ "0".toList ++ "/24".toList)
  | _ => .error "list index out of range".toList

/-- The loop over `output`: the iterator of the list and `index` advance
together, and the iterator stops at the end the list has by then.  There are
at most as many passes as elements at the start. -/
def maskLoop : ℕ → ℕ → List Text → Except Text (List Text)
  | 0, _, output => .ok output
  | passes + 1, index, output =>
      match output[index]? with
      | none => .ok output
      | some value =>
          if 'f' ∈ value then
            maskLoop passes (index + 1) (output.eraseIdx index)
          else
            match maskAddress value with
            | .error exception => .error exception
            | .ok masked =>
                maskLoop passes (index + 1) (output.set index masked)

def homeNetwork (stdout : Text) : Except Text (List Text) :=
  let output := (stdout.splitOn ' ').dropLast
  maskLoop output.length 0 output

theorem Address.unbroken (address : Address) : Unbroken address.text :=
  Token.unbroken address (by decide)

theorem splitOn_hostnameOutput (addresses : List Address) :
    ((hostnameOutput addresses).splitOn ' ').dropLast =
      addresses.map Token.text := by
  have hblank : ∀ part ∈ addresses.map Token.text, ' ' ∉ part := by
    intro part hpart
    obtain ⟨address, _, rfl⟩ := List.mem_map.mp hpart
    exact address.not_mem (by decide)
  unfold hostnameOutput
  rw [splitOn_terminated hblank (by decide), List.dropLast_concat]

theorem maskAddress_unbroken {value masked : Text} (hvalue : Unbroken value)
    (hmasked : maskAddress value = .ok masked) : Unbroken masked := by
  unfold maskAddress at hmasked
  split at hmasked
  next first second third rest hsplit =>
    have hpart : ∀ part ∈ value.splitOn '.', Unbroken part := by
      intro part hmem c hc
      exact hvalue c (subset_of_mem_splitOn hmem hc)
    rw [hsplit] at hpart
    have hfirst := hpart first (by simp)
    have hsecond := hpart second (by simp)
    have hthird := hpart third (by simp)
    rw [Except.ok.injEq] at hmasked
    subst hmasked
    simp only [unbroken_append, hfirst, hsecond, hthird, true_and]
    decide
  next => contradiction

theorem maskLoop_unbroken {passes index : ℕ} {output result : List Text}
    (houtput : ∀ value ∈ output, Unbroken value)
    (hresult : maskLoop passes index output = .ok result) :
    ∀ value ∈ result, Unbroken value := by
  induction passes generalizing index output with
  | zero =>
      rw [maskLoop, Except.ok.injEq] at hresult
      rw [← hresult]
      exact houtput
  | succ passes ih =>
      unfold maskLoop at hresult
      cases hvalue : output[index]? with
      | none =>
          rw [hvalue, Except.ok.injEq] at hresult
          rw [← hresult]
          exact houtput
      | some value =>
          simp only [hvalue] at hresult
          have hmem := List.mem_of_getElem? hvalue
          split at hresult
          · apply ih _ hresult
            intro other hother
            exact houtput other ((List.eraseIdx_sublist _ _).subset hother)
          · cases hmask : maskAddress value with
            | error exception =>
                rw [hmask] at hresult
                contradiction
            | ok masked =>
                rw [hmask] at hresult
                apply ih _ hresult
                intro other hother
                cases List.mem_or_eq_of_mem_set hother with
                | inl hold => exact houtput other hold
                | inr hnew =>
                    rw [hnew]
                    exact maskAddress_unbroken (houtput value hmem) hmask

theorem homeNetwork_unbroken {addresses : List Address}
    {homeNet : List Text}
    (hcomputed : homeNetwork (hostnameOutput addresses) = .ok homeNet) :
    ∀ value ∈ homeNet, Unbroken value := by
  unfold homeNetwork at hcomputed
  rw [splitOn_hostnameOutput] at hcomputed
  apply maskLoop_unbroken _ hcomputed
  intro value hvalue
  obtain ⟨address, _, rfl⟩ := List.mem_map.mp hvalue
  exact Address.unbroken address

end SecaasCharms
