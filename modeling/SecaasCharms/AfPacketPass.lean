import SecaasCharms.ConfigurationRuns

/-!
# The second pass over `suricata.yaml` by itself

The pass keeps a flag while it goes over the lines.  The flag is up exactly
when the line before is `af-packet:`, so a later pass meets the lines that
the first one met, and only their replacements differ.  The lines it goes
over are those of the file as text mode reads it; of a file with carriage
returns it rewrites every line end.
-/

namespace SecaasCharms

open TextLines
open FileLines

/-- The pass as the handlers run it, on the file as it is read in text
mode. -/
def inPlacePass (interface content : Text) : Text :=
  afPacketPass interface (universalNewlines content)

/-- The lines that the pass goes over. -/
def fileLines (content : Text) : List Text :=
  readLines (universalNewlines content)

def interfaceEntry (interface : Text) : Text :=
  "  - interface: ".toList ++ interface ++ "\n".toList

def OneLine (interface : Text) : Prop :=
  '\n' ∉ interface ∧ '\r' ∉ interface

/-- The line with this number is directly below an `af-packet:`. -/
def BelowAfPacket (lines : List Text) (number : ℕ) : Prop :=
  0 < number ∧ lines[number - 1]? = some "af-packet:\n".toList

/-- The second list is the first one with every line below an `af-packet:`
replaced that is not one itself. -/
structure EditsLines (interface : Text) (before after : List Text) : Prop where
  length : after.length = before.length
  keeps : ∀ number line, before[number]? = some line →
    line = "af-packet:\n".toList ∨ ¬ BelowAfPacket before number →
    after[number]? = some line
  replaces : ∀ number line, before[number]? = some line →
    line ≠ "af-packet:\n".toList → BelowAfPacket before number →
    after[number]? = some (interfaceEntry interface)

/-- What the pass promises for one text, if these are its lines. -/
structure EditsBelowAfPacket (interface content : Text)
    (lines : List Text) : Prop where
  overwrites : ∀ other, OneLine other →
    inPlacePass other (inPlacePass interface content) =
      inPlacePass other content
  edits : EditsLines interface lines
    (readLines (inPlacePass interface content))
  commutes : ∀ addresses output,
    homeNetwork (hostnameOutput addresses) = .ok output →
    inPlacePass interface
        (SuricataCharm.homeNetLine output ++ '\n' :: content) =
      SuricataCharm.homeNetLine output ++
        '\n' :: inPlacePass interface content

/-! ## The pass on lines -/

theorem interfaceEntry_ne_afPacket (interface : Text) :
    "af-packet:\n".toList ≠ interfaceEntry interface := by
  intro hsame
  have hhead : some 'a' = some ' ' := congrArg List.head? hsame
  exact absurd hhead (by decide)

theorem afPacketLines_afPacket (interface : Text) (change : Bool)
    (lines : List Text) :
    afPacketLines interface change ("af-packet:\n".toList :: lines) =
      "af-packet:\n".toList :: afPacketLines interface true lines :=
  if_pos rfl

theorem afPacketLines_below {line : Text}
    (hline : "af-packet:\n".toList ≠ line) (interface : Text)
    (lines : List Text) :
    afPacketLines interface true (line :: lines) =
      interfaceEntry interface :: afPacketLines interface false lines :=
  (if_neg hline).trans (if_pos rfl)

theorem afPacketLines_other {line : Text}
    (hline : "af-packet:\n".toList ≠ line) (interface : Text)
    (lines : List Text) :
    afPacketLines interface false (line :: lines) =
      line :: afPacketLines interface false lines :=
  (if_neg hline).trans (if_neg Bool.false_ne_true)

/-- Both passes raise their flags at the same lines. -/
theorem afPacketLines_overwrite (interface other : Text) (change : Bool)
    (lines : List Text) :
    afPacketLines other change (afPacketLines interface change lines) =
      afPacketLines other change lines := by
  induction lines generalizing change with
  | nil => rfl
  | cons line lines ih =>
      by_cases hline : "af-packet:\n".toList = line
      · rw [← hline, afPacketLines_afPacket, afPacketLines_afPacket,
          afPacketLines_afPacket, ih]
      · cases change with
        | true =>
            have hentry := interfaceEntry_ne_afPacket interface
            rw [afPacketLines_below hline, afPacketLines_below hentry,
              afPacketLines_below hline, ih]
        | false =>
            rw [afPacketLines_other hline, afPacketLines_other hline,
              afPacketLines_other hline, ih]

/-- The flag is up when the pass comes to the line with this number. -/
def Flagged (change : Bool) (lines : List Text) (number : ℕ) : Prop :=
  BelowAfPacket lines number ∨ (number = 0 ∧ change = true)

theorem flagged_zero (change : Bool) (lines : List Text) :
    Flagged change lines 0 ↔ change = true := by
  simp [Flagged, BelowAfPacket]

theorem flagged_succ (change : Bool) (line : Text) (lines : List Text)
    (number : ℕ) :
    Flagged change (line :: lines) (number + 1) ↔
      Flagged (decide ("af-packet:\n".toList = line)) lines number := by
  unfold Flagged BelowAfPacket
  cases number with
  | zero =>
      constructor
      · intro hflagged
        rcases hflagged with ⟨_, hbefore⟩ | ⟨hzero, _⟩
        · have hline : some line = some "af-packet:\n".toList := hbefore
          exact Or.inr ⟨rfl, decide_eq_true (Option.some.inj hline).symm⟩
        · exact absurd hzero (Nat.succ_ne_zero 0)
      · intro hflagged
        rcases hflagged with ⟨hpos, _⟩ | ⟨_, hline⟩
        · exact absurd hpos (Nat.lt_irrefl 0)
        · have hsame := of_decide_eq_true hline
          exact Or.inl ⟨Nat.one_pos, congrArg some hsame.symm⟩
  | succ number =>
      constructor
      · intro hflagged
        rcases hflagged with ⟨_, hbefore⟩ | ⟨hzero, _⟩
        · exact Or.inl ⟨Nat.succ_pos number, hbefore⟩
        · exact absurd hzero (Nat.succ_ne_zero (number + 1))
      · intro hflagged
        rcases hflagged with ⟨_, hbefore⟩ | ⟨hzero, _⟩
        · exact Or.inl ⟨Nat.succ_pos (number + 1), hbefore⟩
        · exact absurd hzero (Nat.succ_ne_zero number)

/-- The flag at a line says whether the line before is `af-packet:`. -/
theorem getElem?_afPacketLines (interface : Text) (change : Bool)
    {lines : List Text} {number : ℕ} {line : Text}
    (hline : lines[number]? = some line) :
    (afPacketLines interface change lines)[number]? =
        some (interfaceEntry interface) ∧
        line ≠ "af-packet:\n".toList ∧ Flagged change lines number ∨
      (afPacketLines interface change lines)[number]? = some line ∧
        (line = "af-packet:\n".toList ∨ ¬ Flagged change lines number) := by
  induction lines generalizing change number with
  | nil => simp at hline
  | cons first lines ih =>
      cases number with
      | zero =>
          rw [List.getElem?_cons_zero, Option.some.injEq] at hline
          rw [flagged_zero, ← hline]
          by_cases hfirst : "af-packet:\n".toList = first
          · right
            rw [← hfirst, afPacketLines_afPacket]
            exact ⟨rfl, Or.inl rfl⟩
          · cases change with
            | true =>
                left
                rw [afPacketLines_below hfirst]
                exact ⟨rfl, Ne.symm hfirst, rfl⟩
            | false =>
                right
                rw [afPacketLines_other hfirst]
                exact ⟨rfl, Or.inr Bool.false_ne_true⟩
      | succ number =>
          rw [List.getElem?_cons_succ] at hline
          have hrest :=
            ih (decide ("af-packet:\n".toList = first)) hline
          have htail : (afPacketLines interface change
                (first :: lines))[number + 1]? =
              (afPacketLines interface
                (decide ("af-packet:\n".toList = first)) lines)[number]? := by
            by_cases hfirst : "af-packet:\n".toList = first
            · rw [decide_eq_true hfirst, ← hfirst, afPacketLines_afPacket,
                List.getElem?_cons_succ]
            · rw [decide_eq_false hfirst]
              cases change with
              | true =>
                  rw [afPacketLines_below hfirst, List.getElem?_cons_succ]
              | false =>
                  rw [afPacketLines_other hfirst, List.getElem?_cons_succ]
          rw [htail, flagged_succ]
          exact hrest

/-! ## The pass on the file -/

theorem return_not_mem_afPacketPass {interface content : Text}
    (hinterface : '\r' ∉ interface) (hcontent : '\r' ∉ content) :
    '\r' ∉ afPacketPass interface content := by
  have hlabel : '\r' ∉ "  - interface: ".toList := by decide
  have hnewline : '\r' ∉ "\n".toList := by decide
  intro hmem
  unfold afPacketPass at hmem
  rw [List.mem_flatten] at hmem
  rcases hmem with ⟨line, hline, hreturn⟩
  cases mem_afPacketLines hline with
  | inl hold =>
      apply hcontent
      rw [← flatten_readLines content, List.mem_flatten]
      exact ⟨line, hold, hreturn⟩
  | inr hnew =>
      rw [hnew, List.mem_append, List.mem_append] at hreturn
      exact hreturn.elim (fun h => h.elim hlabel hinterface) hnewline

theorem readLines_inPlacePass {interface : Text} (hone : OneLine interface)
    (content : Text) :
    readLines (inPlacePass interface content) =
      afPacketLines interface false (fileLines content) :=
  readLines_flatten
    (linesOf_afPacketLines_of_terminated hone.1 false (linesOf_readLines _))

/-- The result has no carriage return left, so it is read as it is. -/
theorem fileLines_inPlacePass {interface : Text} (hone : OneLine interface)
    (content : Text) :
    fileLines (inPlacePass interface content) =
      afPacketLines interface false (fileLines content) := by
  rw [← readLines_inPlacePass hone]
  unfold fileLines inPlacePass
  rw [universalNewlines_of_return_not_mem (return_not_mem_afPacketPass hone.2
    (return_not_mem_universalNewlines content))]

theorem inPlacePass_eq (interface content : Text) :
    inPlacePass interface content =
      (afPacketLines interface false (fileLines content)).flatten :=
  rfl

theorem inPlacePass_header (interface : Text) {output : List Text}
    (houtput : ∀ value ∈ output, Unbroken value) (content : Text) :
    inPlacePass interface
        (SuricataCharm.homeNetLine output ++ '\n' :: content) =
      SuricataCharm.homeNetLine output ++
        '\n' :: inPlacePass interface content := by
  unfold inPlacePass
  rw [suricata_headerLines, suricata_headerLines,
    universalNewlines_append (return_not_mem_header .suricata houtput),
    afPacketPass_append_header interface houtput]

theorem editsLines_afPacketLines (interface : Text) (lines : List Text) :
    EditsLines interface lines (afPacketLines interface false lines) := by
  have hflagged : ∀ number,
      Flagged false lines number ↔ BelowAfPacket lines number := by
    intro number
    simp [Flagged]
  constructor
  · exact length_afPacketLines interface false lines
  · intro number line hline hkept
    rw [← hflagged] at hkept
    rcases getElem?_afPacketLines interface false hline with
      ⟨_, hother, hbelow⟩ | ⟨hsame, _⟩
    · exact absurd hkept (not_or.mpr ⟨hother, not_not.mpr hbelow⟩)
    · exact hsame
  · intro number line hline hother hbelow
    rw [← hflagged] at hbelow
    rcases getElem?_afPacketLines interface false hline with
      ⟨hentry, _⟩ | ⟨_, hkept⟩
    · exact hentry
    · exact absurd hkept (not_or.mpr ⟨hother, not_not.mpr hbelow⟩)

theorem editsBelowAfPacket_fileLines {interface : Text}
    (hone : OneLine interface) (content : Text) :
    EditsBelowAfPacket interface content (fileLines content) := by
  constructor
  · intro other _
    rw [inPlacePass_eq other, fileLines_inPlacePass hone,
      afPacketLines_overwrite, inPlacePass_eq]
  · rw [readLines_inPlacePass hone]
    exact editsLines_afPacketLines interface (fileLines content)
  · intro addresses output hcomputed
    exact inPlacePass_header interface (homeNetwork_unbroken hcomputed)
      content

/-- The pass is a last-writer-wins edit of the lines below `af-packet:` and
leaves the rest of every text as text mode reads it, and so the rest of every
text without carriage returns. -/
theorem editsBelowAfPacket {interface : Text} (hone : OneLine interface)
    (content : Text) :
    EditsBelowAfPacket interface content (fileLines content) ∧
      ('\r' ∉ content →
        EditsBelowAfPacket interface content (readLines content)) := by
  have hedits := editsBelowAfPacket_fileLines hone content
  refine ⟨hedits, ?_⟩
  intro hreturn
  unfold fileLines at hedits
  rw [universalNewlines_of_return_not_mem hreturn] at hedits
  exact hedits

/-- Two adjacent `af-packet:` lines and one at the end without a newline. -/
theorem editsBelowAfPacket_of_sample :
    let content :=
      "af-packet:\naf-packet:\n  - interface: eth1\naf-packet:".toList
    EditsBelowAfPacket "eth0".toList content (fileLines content) ∧
      ('\r' ∉ content →
        EditsBelowAfPacket "eth0".toList content (readLines content)) :=
  editsBelowAfPacket (by unfold OneLine; decide) _

/-- A line that ends with a carriage return and a newline is not left as it
is. -/
theorem not_editsBelowAfPacket_of_return :
    ¬ EditsBelowAfPacket "eth0".toList "a\r\n".toList
      (readLines "a\r\n".toList) := by
  intro hedits
  have hkept := hedits.edits.keeps 0 "a\r\n".toList (by decide)
    (Or.inr (fun hbelow => Nat.lt_irrefl 0 hbelow.1))
  revert hkept
  decide

end SecaasCharms
