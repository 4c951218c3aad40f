import PlatformClasses.FileTree
import PlatformClasses.Proofs.Path.Names

/-!
# The places that paths lead to

A path is followed step by step, and each step but the last must start from a directory.  Where a path
leads is known before it is followed: `place` takes the same steps without looking at the entries of a
tree, and `placeOf_eq_ok_iff` says that these only decide whether the steps can be taken.
`madeDirectories` tells what stands where after the directories along a path have been made.
-/

namespace PlatformClasses.FileTree

/-! ## Following a path -/

/-- Every step along components starts from a directory. -/
def Leads (t : FileTree) (top : Path) : List String → Prop
  | [] => True
  | c :: rest => t.entryAt? top = some .directory ∧ t.Leads (stepFrom top c) rest

/-- A path can be followed to its place. -/
def Reaches (t : FileTree) (p : Path) : Prop :=
  t.Leads (origin t.here p.anchor) p.components

theorem follow_eq_ok_iff (t : FileTree) (components : List String) (top q : Path) :
    t.follow top components = .ok q ↔
      t.Leads top components ∧ q = descend top components := by
  induction components generalizing top with
  | nil =>
      simp only [follow, Leads, descend, List.foldl_nil, true_and, Except.ok.injEq]
      exact eq_comm
  | cons c rest ih =>
      simp only [follow, Leads, descend, List.foldl_cons]
      cases h : t.entryAt? top with
      | none => simp
      | some entry =>
          cases entry with
          | file bytes => simp
          | directory => simpa [descend] using ih (stepFrom top c)

/-- A path leads to its place if and only if every place before it is a directory. -/
theorem placeOf_eq_ok_iff (t : FileTree) (p q : Path) :
    t.placeOf p = .ok q ↔ t.Reaches p ∧ q = place t.here p := by
  unfold placeOf Reaches place
  rw [← follow_eq_ok_iff]
  cases t.follow (origin t.here p.anchor) p.components with
  | ok top => simp
  | error notDirectory => cases notDirectory <;> simp

theorem leads_append (t : FileTree) (xs ys : List String) (top : Path) :
    t.Leads top (xs ++ ys) ↔ t.Leads top xs ∧ t.Leads (descend top xs) ys := by
  induction xs generalizing top with
  | nil => simp [Leads, descend]
  | cons x xs ih => simp [Leads, ih, descend, and_assoc]

/-- Directories that stay keep a path open. -/
theorem Leads.mono {t t' : FileTree}
    (hstay : ∀ q, t.entryAt? q = some .directory → t'.entryAt? q = some .directory)
    {components : List String} {top : Path} (h : t.Leads top components) :
    t'.Leads top components := by
  induction components generalizing top with
  | nil => trivial
  | cons c rest ih => exact ⟨hstay top h.1, ih h.2⟩

theorem Reaches.mono {t t' : FileTree} (hhere : t'.here = t.here)
    (hstay : ∀ q, t.entryAt? q = some .directory → t'.entryAt? q = some .directory) {p : Path}
    (h : t.Reaches p) : t'.Reaches p := by
  unfold Reaches
  rw [hhere]
  exact Leads.mono hstay h

/-- A file that stands where a path leads is what is read there. -/
theorem read_eq_ok {t : FileTree} {p : Path} {bytes : List UInt8} (hreach : t.Reaches p)
    (hentry : t.entryAt? (place t.here p) = some (.file bytes)) : t.read p = .ok bytes := by
  have hplace : t.placeOf p = .ok (place t.here p) := (placeOf_eq_ok_iff t p _).2 ⟨hreach, rfl⟩
  simp only [read, hplace, bind, Except.bind, hentry]

/-- Trees with the same entries are followed alike. -/
theorem follow_congr {t t' : FileTree} (h : ∀ q, t.entryAt? q = t'.entryAt? q)
    (components : List String) (top : Path) :
    t.follow top components = t'.follow top components := by
  induction components generalizing top with
  | nil => rfl
  | cons c rest ih => simp only [follow, h top, ih]

/-- Where the same stands at every place, the same is found by every path. -/
theorem lookup?_congr {t t' : FileTree} (hhere : t.here = t'.here)
    (h : ∀ q, t.entryAt? q = t'.entryAt? q) (p : Path) : t.lookup? p = t'.lookup? p := by
  unfold lookup? placeOf
  rw [follow_congr h, hhere]
  cases t'.follow (origin t'.here p.anchor) p.components with
  | ok place => exact h place
  | error notDirectory => cases notDirectory <;> rfl

/-! ## Places that lead down -/

/-- Without `..`, steps lead on from a place as they are written. -/
theorem descend_eq_extend (top : Path) {steps : List String} (h : ".." ∉ steps) :
    descend top steps = top.extend steps := by
  induction steps generalizing top with
  | nil => simp [descend, Path.extend]
  | cons s rest ih =>
      have hs : s ≠ ".." := fun heq => h (by simp [heq])
      have hrest : ".." ∉ rest := fun hmem => h (List.mem_cons_of_mem s hmem)
      have hstep : stepFrom top s = top.extend [s] := by simp [stepFrom, hs, Path.extend]
      show descend (stepFrom top s) rest = top.extend (s :: rest)
      rw [ih _ hrest, hstep, Path.extend_extend, List.singleton_append]

/-- Steps that do not lead up are kept. -/
theorem place_extend (here : List String) (d : Path) {steps : List String} (h : ".." ∉ steps) :
    place here (d.extend steps) = (place here d).extend steps := by
  show descend (origin here d.anchor) (d.components ++ steps) = (place here d).extend steps
  rw [← descend_eq_extend _ h]
  exact List.foldl_append

/-! ## Making directories -/

/-- A place is one of those that a path passes or leads to. -/
def OnWay (here : List String) (p q : Path) : Prop :=
  ∃ cs, cs <+: p.components ∧ q = place here ⟨p.anchor, cs⟩

/-- What stands where after the directories along a path have been made: nothing that stood there has
changed, and what has been added are directories on the way. -/
structure MadeDirectories (t : FileTree) (p : Path) (t' : FileTree) : Prop where
  here : t'.here = t.here
  made : ∀ q, OnWay t.here p q → t'.entryAt? q = some .directory
  kept : ∀ q entry, t.entryAt? q = some entry → t'.entryAt? q = some entry
  absent : ∀ q, t.entryAt? q = none → ¬ OnWay t.here p q → t'.entryAt? q = none

/-- What paths set out from is a directory. -/
theorem entryAt?_origin (t : FileTree) (anchor : Nat) :
    t.entryAt? (origin t.here anchor) = some .directory := by
  have hway : isOnWayHere t.here (origin t.here anchor) = true := by
    unfold isOnWayHere origin
    split <;> simp
  simp [entryAt?, hway]

/-- A place where something else than a directory stands, or nothing, is not on the way to the working
directory. -/
theorem isOnWayHere_eq_false_of_entryAt? {t : FileTree} {q : Path}
    (h : t.entryAt? q ≠ some .directory) : isOnWayHere t.here q = false := by
  cases hq : isOnWayHere t.here q with
  | false => rfl
  | true => simp [entryAt?, hq] at h

/-- The places before the end of a path that can be followed are directories. -/
theorem Reaches.entryAt?_of_onWay {t : FileTree} {p q : Path} (h : t.Reaches p)
    (hq : OnWay t.here p q) (hne : q ≠ place t.here p) : t.entryAt? q = some .directory := by
  obtain ⟨cs, ⟨rest, hrest⟩, rfl⟩ := hq
  rw [Reaches, ← hrest, leads_append] at h
  cases rest with
  | nil =>
      refine absurd ?_ hne
      rw [List.append_nil] at hrest
      rw [hrest]
  | cons c rest => exact h.2.1

/-- One directory is made at a place that is free and can be reached. -/
theorem makeDirectory_eq_ok {t made : FileTree} {p : Path} (h : t.makeDirectory p = .ok made) :
    t.Reaches p ∧ t.entryAt? (place t.here p) = none ∧ made = t.put (place t.here p) .directory := by
  unfold makeDirectory at h
  cases hplace : t.placeOf p with
  | error e => simp [hplace, bind, Except.bind] at h
  | ok top =>
      obtain ⟨hreach, rfl⟩ := (placeOf_eq_ok_iff t p _).1 hplace
      simp only [hplace, bind, Except.bind] at h
      cases hentry : t.entryAt? (place t.here p) with
      | some entry => simp [hentry] at h
      | none =>
          rw [hentry] at h
          exact ⟨hreach, rfl, (Except.ok.inj h).symm⟩

theorem isDirectory_eq_true {t : FileTree} {p : Path} (h : t.isDirectory p = true) :
    t.Reaches p ∧ t.entryAt? (place t.here p) = some .directory := by
  have hlookup : t.lookup? p = some .directory := by simpa [isDirectory] using h
  unfold lookup? at hlookup
  cases hplace : t.placeOf p with
  | error e => simp [hplace] at hlookup
  | ok top =>
      obtain ⟨hreach, rfl⟩ := (placeOf_eq_ok_iff t p _).1 hplace
      rw [hplace] at hlookup
      exact ⟨hreach, hlookup⟩

theorem madeDirectories_of_makeDirectory {t made : FileTree} {p : Path}
    (h : t.makeDirectory p = .ok made) : MadeDirectories t p made := by
  obtain ⟨hreach, hentry, rfl⟩ := makeDirectory_eq_ok h
  -- the place was free, so only it can have changed
  have hne : ∀ q, t.entryAt? q ≠ none → q ≠ place t.here p := by
    intro q hq heq
    rw [heq] at hq
    exact hq hentry
  have hway : isOnWayHere t.here (place t.here p) = false := by
    apply isOnWayHere_eq_false_of_entryAt?
    rw [hentry]
    simp
  constructor
  · exact here_put t _ _
  · intro q hq
    by_cases heq : q = place t.here p
    · rw [heq]
      exact entryAt?_put_self t hway _
    · rw [entryAt?_put_of_ne t heq]
      exact hreach.entryAt?_of_onWay hq heq
  · intro q entry hq
    rw [entryAt?_put_of_ne t (hne q (by simp [hq]))]
    exact hq
  · intro q hq hway
    have heq : q ≠ place t.here p := fun heq => hway ⟨p.components, List.prefix_rfl, heq⟩
    rw [entryAt?_put_of_ne t heq]
    exact hq

/-- Where there is a directory already, nothing is made. -/
theorem madeDirectories_of_isDirectory {t : FileTree} {p : Path} (h : t.isDirectory p = true) :
    MadeDirectories t p t where
  here := rfl
  made q hq := by
    obtain ⟨hreach, hentry⟩ := isDirectory_eq_true h
    by_cases heq : q = place t.here p
    · rw [heq]
      exact hentry
    · exact hreach.entryAt?_of_onWay hq heq
  kept _ _ hq := hq
  absent _ hq _ := hq

theorem madeDirectories_of_ensureDirectory {t t' : FileTree} {p : Path}
    (h : t.ensureDirectory p = (t', .ok ())) : MadeDirectories t p t' := by
  unfold ensureDirectory at h
  cases hmake : t.makeDirectory p with
  | ok made =>
      rw [hmake] at h
      obtain rfl : made = t' := (Prod.mk.inj h).1
      exact madeDirectories_of_makeDirectory hmake
  | error e =>
      rw [hmake] at h
      obtain ⟨rfl, hdirectory⟩ := Prod.mk.inj h
      cases hd : t.isDirectory p with
      | true => exact madeDirectories_of_isDirectory hd
      | false => simp [hd] at hdirectory

/-- Directories are made one after the other, each on the way to the next. -/
theorem MadeDirectories.trans {t t₁ t' : FileTree} {p r : Path} (h₁ : MadeDirectories t p t₁)
    (h₂ : MadeDirectories t₁ r t') (hway : ∀ q, OnWay t.here p q → OnWay t.here r q) :
    MadeDirectories t r t' where
  here := h₂.here.trans h₁.here
  made q hq := h₂.made q (by rwa [h₁.here])
  kept q entry hq := h₂.kept q entry (h₁.kept q entry hq)
  absent q hq hr :=
    h₂.absent q (h₁.absent q hq fun hp => hr (hway q hp)) (by rwa [h₁.here])

/-- The induction is on the components from the last one up, as directories are made. -/
theorem madeDirectoriesFrom (anchor : Nat) (reversed : List String) {t t' : FileTree}
    (h : makeDirectoriesFrom anchor reversed t = (t', .ok ())) :
    MadeDirectories t ⟨anchor, reversed.reverse⟩ t' := by
  induction reversed generalizing t t' with
  | nil =>
      obtain rfl : t = t' := by simpa [makeDirectoriesFrom] using h
      refine ⟨rfl, ?_, fun q entry hq => hq, fun q hq _ => hq⟩
      rintro q ⟨cs, hcs, rfl⟩
      obtain rfl : cs = [] := List.prefix_nil.1 hcs
      exact entryAt?_origin t anchor
  | cons last above ih =>
      unfold makeDirectoriesFrom at h
      simp only at h
      split at h
      · cases habove : makeDirectoriesFrom anchor above t with
        | mk t₁ result =>
            rw [habove] at h
            cases result with
            | error e => simp at h
            | ok _ =>
                have h₂ := madeDirectories_of_ensureDirectory h
                refine (ih habove).trans h₂ ?_
                rintro q ⟨cs, hcs, rfl⟩
                refine ⟨cs, hcs.trans ?_, rfl⟩
                rw [List.reverse_cons]
                exact List.prefix_append _ _
      · exact madeDirectories_of_ensureDirectory h

/-- Where making directories succeeds, they are there, and nothing else has changed. -/
theorem madeDirectories {t t' : FileTree} {p : Path} (h : t.makeDirectories p = (t', .ok ())) :
    MadeDirectories t p t' := by
  unfold makeDirectories at h
  split at h
  · simp at h
  · have hmade := madeDirectoriesFrom p.anchor p.components.reverse h
    rwa [List.reverse_reverse] at hmade

end PlatformClasses.FileTree
