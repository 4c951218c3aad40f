/-!
# Cutting texts

What follows a leading part of a text, what precedes a trailing part, and the pieces between
separators.
-/

namespace PlatformClasses.Text

/-- What is left of `s` after the leading text `lead`, if `s` starts with it. -/
def afterLead? (lead s : String) : Option String :=
  if lead.toList.isPrefixOf s.toList then some (String.ofList (s.toList.drop lead.toList.length))
  else none

/-- What is left of `s` before the trailing text `trail`, if `s` ends with it. -/
def beforeTrail? (trail s : String) : Option String :=
  if trail.toList.isSuffixOf s.toList then
    some (String.ofList (s.toList.take (s.toList.length - trail.toList.length)))
  else none

/-- Whether `s` starts with `lead`. -/
def hasLead (lead s : String) : Bool := lead.toList.isPrefixOf s.toList

/-- Whether `s` ends with `trail`. -/
def hasTrail (trail s : String) : Bool := trail.toList.isSuffixOf s.toList

/-- The pieces between the occurrences of a separator, one more than there are separators. -/
def piecesOf (separator : Char) : List Char → List (List Char)
  | [] => [[]]
  | c :: rest =>
    if c == separator then [] :: piecesOf separator rest
    else
      match piecesOf separator rest with
      | piece :: pieces => (c :: piece) :: pieces
      | [] => [[c]]

/-- The pieces of a text between the occurrences of a separator. -/
def pieces (separator : Char) (s : String) : List String :=
  (piecesOf separator s.toList).map String.ofList

/-- Joins texts, with a separator between neighbours. -/
def joined (separator : String) : List String → String
  | [] => ""
  | [s] => s
  | s :: rest => s ++ separator ++ joined separator rest

theorem piecesOf_ne_nil (separator : Char) (cs : List Char) : piecesOf separator cs ≠ [] := by
  cases cs with
  | nil => simp [piecesOf]
  | cons c rest =>
    unfold piecesOf
    split
    · simp
    · split <;> simp

theorem afterLead?_eq_some_iff {lead s rest : String} :
    afterLead? lead s = some rest ↔ s = lead ++ rest := by
  unfold afterLead?
  constructor
  · intro h
    split at h
    · next hp =>
      obtain ⟨t, ht⟩ := List.isPrefixOf_iff_prefix.1 hp
      have hr : String.ofList (s.toList.drop lead.toList.length) = rest := by simpa using h
      rw [← hr, ← String.toList_inj, String.toList_append, String.toList_ofList, ← ht]
      simp
    · simp at h
  · rintro rfl
    have hp : lead.toList.isPrefixOf (lead ++ rest).toList = true := by
      rw [List.isPrefixOf_iff_prefix, String.toList_append]
      exact List.prefix_append ..
    rw [if_pos hp, String.toList_append]
    simp

theorem beforeTrail?_eq_some_iff {trail s rest : String} :
    beforeTrail? trail s = some rest ↔ s = rest ++ trail := by
  unfold beforeTrail?
  constructor
  · intro h
    split at h
    · next hp =>
      obtain ⟨t, ht⟩ := List.isSuffixOf_iff_suffix.1 hp
      have hr : String.ofList (s.toList.take (s.toList.length - trail.toList.length)) = rest := by
        simpa using h
      rw [← hr, ← String.toList_inj, String.toList_append, String.toList_ofList, ← ht]
      simp
    · simp at h
  · rintro rfl
    have hp : trail.toList.isSuffixOf (rest ++ trail).toList = true := by
      rw [List.isSuffixOf_iff_suffix, String.toList_append]
      exact List.suffix_append ..
    rw [if_pos hp, String.toList_append]
    simp

theorem hasLead_eq_true_iff {lead s : String} :
    hasLead lead s = true ↔ ∃ rest, s = lead ++ rest := by
  simp only [← afterLead?_eq_some_iff, afterLead?, hasLead]
  split <;> simp [*]

end PlatformClasses.Text
