import PlatformClasses.Proofs.Draft.Layout
import PlatformClasses.Proofs.Target.Known
import PlatformClasses.Proofs.TypeRef.RoundTrip

/-!
# Mapped types as texts

A target maps the names of a reference and nothing else (`shape_mapNames`, `names_mapNames`), and a name is
kept or loses its marker.  A name in a text starts with a letter of ASCII or an underscore, but what follows
a marker is a capital letter of any script.  So the text of a mapped reference can be read again, and as that
reference, if and only if every name that loses its marker goes on with a letter of ASCII
(`parse_mapType_iff`).  Otherwise the text is refused: in an accepted text a word starts like a name wherever
it stands (`isNameStart_of_parse`), and the mapped names are words that stand by themselves in the text
(`exists_render_eq`).
-/

namespace PlatformClasses

namespace TypeRef

/-! ## Names and shape -/

mutual
/-- The names in a reference at any depth, as they are written one after the other, each with whether it has
type arguments. -/
def names : TypeRef → List (String × Bool)
  | mk name arguments _ _ => (name, !arguments.isEmpty) :: namesOfAll arguments

/-- The names in several references. -/
def namesOfAll : List TypeRef → List (String × Bool)
  | [] => []
  | t :: rest => names t ++ namesOfAll rest
end

/-- A reference apart from its names: its arguments, nullable marks and ranks. -/
def shape (type : TypeRef) : TypeRef := type.mapNames fun _ _ => ""

section Mapping

variable (f : String → Bool → String)

theorem isEmpty_mapNamesAll (ts : List TypeRef) : (mapNamesAll f ts).isEmpty = ts.isEmpty := by
  cases ts <;> rfl

mutual
/-- The names of a mapped type are the images of its names, in order. -/
theorem names_mapNames : ∀ t : TypeRef,
    (t.mapNames f).names = t.names.map fun n => (f n.1 n.2, n.2)
  | mk name arguments nullable ranks => by
      rw [mapNames, names, names, isEmpty_mapNamesAll, namesOfAll_mapNamesAll arguments]
      rfl

theorem namesOfAll_mapNamesAll : ∀ ts : List TypeRef,
    namesOfAll (mapNamesAll f ts) = (namesOfAll ts).map fun n => (f n.1 n.2, n.2)
  | [] => rfl
  | t :: rest => by
      rw [mapNamesAll, namesOfAll, namesOfAll, names_mapNames t, namesOfAll_mapNamesAll rest,
        List.map_append]
end

mutual
/-- Mapping names keeps the shape. -/
theorem shape_mapNames : ∀ t : TypeRef, (t.mapNames f).shape = t.shape
  | mk name arguments nullable ranks => by
      show mk "" (mapNamesAll _ (mapNamesAll f arguments)) nullable ranks = _
      rw [shapes_mapNamesAll arguments]
      rfl

theorem shapes_mapNamesAll : ∀ ts : List TypeRef,
    mapNamesAll (fun _ _ => "") (mapNamesAll f ts) = mapNamesAll (fun _ _ => "") ts
  | [] => rfl
  | t :: rest => by
      have ht : mapNames (fun _ _ => "") (mapNames f t) = mapNames (fun _ _ => "") t :=
        shape_mapNames t
      rw [mapNamesAll, mapNamesAll, mapNamesAll, ht, shapes_mapNamesAll rest]
end

mutual
/-- A reference can be written with other names if these are names. -/
theorem isWritable_mapNames : ∀ t : TypeRef, t.isWritable = true →
    (∀ n ∈ t.names, isName (f n.1 n.2) = true) → (t.mapNames f).isWritable = true
  | mk name arguments nullable ranks, h, hnames => by
      simp only [isWritable, Bool.and_eq_true] at h
      rw [names, List.forall_mem_cons] at hnames
      have harguments := areWritable_mapNamesAll arguments h.1.2 hnames.2
      rw [mapNames, isWritable, hnames.1, harguments, h.2]
      rfl

/-- Mapped types can be written if the images of their names can. -/
theorem areWritable_mapNamesAll : ∀ ts : List TypeRef, areWritable ts = true →
    (∀ n ∈ namesOfAll ts, isName (f n.1 n.2) = true) → areWritable (mapNamesAll f ts) = true
  | [], _, _ => rfl
  | t :: rest, h, hnames => by
      simp only [areWritable, Bool.and_eq_true] at h
      rw [namesOfAll, List.forall_mem_append] at hnames
      rw [mapNamesAll, areWritable, isWritable_mapNames t h.1 hnames.1,
        areWritable_mapNamesAll rest h.2 hnames.2]
      rfl
end

end Mapping

mutual
/-- The names in a type that can be written are names. -/
theorem isName_of_mem_names : ∀ t : TypeRef, t.isWritable = true →
    ∀ n ∈ t.names, isName n.1 = true
  | mk name arguments nullable ranks, h => by
      simp only [isWritable, Bool.and_eq_true] at h
      rw [names, List.forall_mem_cons]
      exact ⟨h.1.1, isName_of_mem_namesOfAll arguments h.1.2⟩

theorem isName_of_mem_namesOfAll : ∀ ts : List TypeRef, areWritable ts = true →
    ∀ n ∈ namesOfAll ts, isName n.1 = true
  | [], _ => by simp [namesOfAll]
  | t :: rest, h => by
      simp only [areWritable, Bool.and_eq_true] at h
      rw [namesOfAll, List.forall_mem_append]
      exact ⟨isName_of_mem_names t h.1, isName_of_mem_namesOfAll rest h.2⟩
end

/-! ## Words in texts -/

/-- No word goes on at the end of a text. -/
def EndsWord (cs : List Char) : Prop := ∀ c ∈ cs.getLast?, isNamePart c = false

theorem EndsWord.concat {c : Char} (h : isNamePart c = false) (cs : List Char) :
    EndsWord (cs ++ [c]) := by
  simpa [EndsWord] using h

/-- Nothing that ends a word joins a word with another one. -/
theorem EndsWord.append {cs cs' : List Char} (h : EndsWord cs) (h' : EndsWord cs') :
    EndsWord (cs ++ cs') := by
  intro c hc
  rw [List.getLast?_append] at hc
  cases hlast : cs'.getLast? with
  | none => exact h c (by simpa [hlast] using hc)
  | some c' => exact h' c (by simpa [hlast] using hc)

theorem EndsWord.of_append {cs cs' : List Char} (h : EndsWord (cs ++ cs')) : EndsWord cs' := by
  intro c hc
  refine h c ?_
  rw [List.getLast?_append, Option.mem_def.1 hc]
  rfl

/-- A word begins somewhere in a text. -/
def BeginsIn (word cs : List Char) : Prop :=
  ∃ front back, cs = front ++ (word ++ back) ∧ EndsWord front

/-- A word still begins behind what ends a word. -/
theorem BeginsIn.append_left {word cs front : List Char} (hfront : EndsWord front)
    (h : BeginsIn word cs) : BeginsIn word (front ++ cs) := by
  obtain ⟨inner, back, rfl, hinner⟩ := h
  exact ⟨front ++ inner, back, (List.append_assoc ..).symm, hfront.append hinner⟩

theorem BeginsIn.append_right {word cs : List Char} (h : BeginsIn word cs) (rest : List Char) :
    BeginsIn word (cs ++ rest) := by
  obtain ⟨front, back, rfl, hfront⟩ := h
  exact ⟨front, back ++ rest, by simp only [List.append_assoc], hfront⟩

mutual
/-- Every name of a reference begins in its canonical text. -/
theorem beginsIn_render : ∀ t : TypeRef, ∀ n ∈ t.names, BeginsIn n.1.toList t.render.toList
  | mk name arguments nullable ranks => by
      let marks := (if nullable then "?" else "") ++ rankText ranks
      have hrender : (mk name arguments nullable ranks).render.toList =
          name.toList ++ ((renderArguments arguments).toList ++ marks.toList) := by
        simp [render, marks]
      rw [names, List.forall_mem_cons, hrender]
      constructor
      · exact ⟨[], _, rfl, by simp [EndsWord]⟩
      · intro n hn
        have harguments := beginsIn_renderArguments arguments n hn name.toList
        have hmarked := harguments.append_right marks.toList
        rwa [List.append_assoc] at hmarked

/-- Each name in type arguments begins somewhere in what is written for them. -/
theorem beginsIn_renderArguments : ∀ ts : List TypeRef, ∀ n ∈ namesOfAll ts,
    ∀ front : List Char, BeginsIn n.1.toList (front ++ (renderArguments ts).toList)
  | [], n, hn, front => by simp [namesOfAll] at hn
  | t :: rest, n, hn, front => by
      have hopen : EndsWord (front ++ ['<']) := .concat (by decide) front
      have hrender : front ++ (renderArguments (t :: rest)).toList =
          (front ++ ['<']) ++ (t.render.toList ++ (renderRest rest).toList) := by
        simp [renderArguments]
      rw [hrender]
      rcases List.mem_append.1 hn with hn | hn
      · exact ((beginsIn_render t n hn).append_right _).append_left hopen
      · rw [← List.append_assoc]
        exact beginsIn_renderRest rest n hn _

theorem beginsIn_renderRest : ∀ ts : List TypeRef, ∀ n ∈ namesOfAll ts,
    ∀ front : List Char, BeginsIn n.1.toList (front ++ (renderRest ts).toList)
  | [], n, hn, front => by simp [namesOfAll] at hn
  | t :: rest, n, hn, front => by
      have hspace : EndsWord (front ++ [','] ++ [' ']) := .concat (by decide) (front ++ [','])
      have hrender : front ++ (renderRest (t :: rest)).toList =
          (front ++ [','] ++ [' ']) ++ (t.render.toList ++ (renderRest rest).toList) := by
        simp [renderRest]
      rw [hrender]
      rcases List.mem_append.1 hn with hn | hn
      · exact ((beginsIn_render t n hn).append_right _).append_left hspace
      · rw [← List.append_assoc]
        exact beginsIn_renderRest rest n hn _
end

/-! ## Words in accepted texts -/

/-- The characters of words in a token are those of a name, which starts like one. -/
theorem Spelling.isNameStart_of_chars_eq {s : Spelling} {front back : List Char} {c : Char}
    (h : s.chars = front ++ c :: back) (hfront : EndsWord front) (hc : isNamePart c = true) :
    Text.isNameStart c = true := by
  have hmem : c ∈ s.chars := by simp [h]
  cases s with
  | name n =>
      cases front with
      | nil =>
          obtain ⟨rfl, -⟩ : n.first = c ∧ n.rest = back := by simpa [Spelling.chars] using h
          exact n.isStart
      | cons first front =>
          -- what stands before the character belongs to the name as well
          obtain ⟨hfirst, hrest⟩ : n.first = first ∧ n.rest = front ++ c :: back := by
            simpa [Spelling.chars] using h
          have hparts : ∀ x ∈ first :: front, isNamePart x = true := by
            rw [List.forall_mem_cons, ← hfirst]
            refine ⟨isNamePart_of_isNameStart n.isStart, fun x hx => n.areParts x ?_⟩
            rw [hrest]
            exact List.mem_append_left _ hx
          have hlast := List.getLast?_eq_some_getLast (List.cons_ne_nil first front)
          have hpart := hparts _ (List.getLast_mem (List.cons_ne_nil first front))
          rw [hfront _ hlast] at hpart
          simp at hpart
  | rank r =>
      have hrank : ∀ x ∈ Spelling.chars (.rank r), isNamePart x = false := by
        intro x hx
        rcases List.mem_cons.1 hx with rfl | hx
        · decide
        rcases List.mem_append.1 hx with hx | hx
        · rcases Bool.or_eq_true_iff.1 (r.areParts x hx) with hblank | hcomma
          · exact isNamePart_of_isBlank hblank
          · obtain rfl : x = ',' := by simpa using hcomma
            decide
        · obtain rfl := List.mem_singleton.1 hx
          decide
      rw [hrank c hmem] at hc
      simp at hc
  | less | greater | comma | question =>
      obtain rfl := List.mem_singleton.1 hmem
      exact absurd hc (by decide)

/-- Where a word begins in a text, a name begins. -/
theorem isNameStart_of_charsOf_eq {ls : List Lexeme} {trailing : Blanks} {front back : List Char}
    {c : Char} (h : charsOf ls ++ trailing.chars = front ++ c :: back) (hfront : EndsWord front)
    (hc : isNamePart c = true) : Text.isNameStart c = true := by
  have hblanks : ∀ (b : Blanks) (front back : List Char), b.chars ≠ front ++ c :: back := by
    intro b front back hb
    have hblank := b.areBlank c (by simp [hb])
    rw [isNamePart_of_isBlank hblank] at hc
    simp at hc
  induction ls generalizing front with
  | nil => exact absurd h (hblanks trailing front back)
  | cons l ls ih =>
      rw [charsOf_cons, Lexeme.chars, List.append_assoc, List.append_assoc] at h
      rcases append_eq_append_cons_cases h with ⟨inner, rfl, hinner⟩ | ⟨left, hbefore⟩
      · rcases append_eq_append_cons_cases hinner with ⟨rest, rfl, hrest⟩ | ⟨left, hspelling⟩
        · exact ih hrest hfront.of_append.of_append
        · exact Spelling.isNameStart_of_chars_eq hspelling hfront.of_append hc
      · exact absurd hbefore (hblanks l.before _ left)

/-- Words of an accepted text start like names. -/
theorem isNameStart_of_parse {text : String} {type : TypeRef} (h : parse text = .ok type) {c : Char}
    {word : List Char} (hword : BeginsIn (c :: word) text.toList) (hc : isNamePart c = true) :
    Text.isNameStart c = true := by
  obtain ⟨d, rfl, -⟩ := exists_derivation_of_parse h
  obtain ⟨front, back, hchars, hfront⟩ := hword
  rw [d.toList_text] at hchars
  exact isNameStart_of_charsOf_eq hchars hfront hc

end TypeRef

namespace Target

open TypeRef

/-! ## Mapped names -/

/-- A name that is mapped to another one has a letter of ASCII after its marker. -/
def StaysName (t : Target) (n : String × Bool) : Prop :=
  t.mapName n.1 n.2 = n.1 ∨
    ∃ c rest, n.1.toList = 'I' :: c :: rest ∧ Text.isAsciiLetter c = true

/-- A marked name is a capital I in front of a capital letter. -/
theorem exists_of_strip? {name stripped : String} (h : Marker.strip? name = some stripped) :
    ∃ c rest, name.toList = 'I' :: c :: rest ∧ stripped.toList = c :: rest ∧
      Text.isUpper c = true := by
  have hname := congrArg String.toList (Marker.eq_append_of_strip? h)
  obtain ⟨c, rest, hstripped, hupper⟩ : ∃ c rest, stripped.toList = c :: rest ∧
      Text.isUpper c = true := by
    unfold Marker.strip? at h
    split at h
    · next c rest _ =>
      split at h
      · next hupper =>
        obtain rfl := Option.some.inj h
        exact ⟨c, rest, String.toList_ofList, hupper⟩
      · simp at h
    · simp at h
  refine ⟨c, rest, ?_, hstripped, hupper⟩
  rw [hname, String.toList_append, hstripped]
  rfl

/-- A capital letter can start a name if it is one of ASCII. -/
theorem isNameStart_iff_of_isUpper {c : Char} (h : Text.isUpper c = true) :
    Text.isNameStart c = true ↔ Text.isAsciiLetter c = true := by
  have hc : c ≠ '_' := by
    rintro rfl
    exact absurd h (by decide)
  simp [Text.isNameStart, hc]

/-- What a name is mapped to is a word, which is a name if the name stays one. -/
theorem exists_word_of_mapName {t : Target} (ht : FollowsMarker t.known) {n : String × Bool}
    (hname : isName n.1 = true) :
    ∃ c rest, (t.mapName n.1 n.2).toList = c :: rest ∧ isNamePart c = true ∧
      rest.all isNamePart = true ∧ (Text.isNameStart c = true ↔ t.StaysName n) := by
  obtain ⟨w, hw⟩ := exists_name hname
  have hrest : w.rest.all isNamePart = true := List.all_eq_true.2 w.areParts
  have hkept : t.mapName n.1 n.2 = n.1 →
      ∃ c rest, (t.mapName n.1 n.2).toList = c :: rest ∧ isNamePart c = true ∧
        rest.all isNamePart = true ∧ (Text.isNameStart c = true ↔ t.StaysName n) := by
    intro hmap
    rw [hmap]
    exact ⟨w.first, w.rest, hw.symm, isNamePart_of_isNameStart w.isStart, hrest,
      iff_of_true w.isStart (.inl hmap)⟩
  by_cases hmap : t.mapName n.1 n.2 = n.1
  · exact hkept hmap
  · cases hstrip : Marker.strip? n.1 with
    | none =>
        refine absurd ?_ hmap
        rw [mapName_eq ht, hstrip]
        simp
    | some stripped =>
        have hmapped : t.mapName n.1 n.2 = stripped := by
          rw [mapName_eq ht, hstrip] at hmap ⊢
          split at hmap
          · exact absurd rfl hmap
          · next hnot => rw [if_neg hnot, Option.getD_some]
        obtain ⟨c, rest, hchars, hstripped, hupper⟩ := exists_of_strip? hstrip
        obtain ⟨-, hparts⟩ : w.first = 'I' ∧ w.rest = c :: rest := by simpa [hchars] using hw
        rw [hparts, List.all_cons, Bool.and_eq_true] at hrest
        refine ⟨c, rest, by rw [hmapped, hstripped], hrest.1, hrest.2, ?_⟩
        rw [isNameStart_iff_of_isUpper hupper, StaysName, or_iff_right hmap, hchars]
        constructor
        · intro hletter
          exact ⟨c, rest, rfl, hletter⟩
        · rintro ⟨c', rest', heq, hletter⟩
          obtain ⟨rfl, -⟩ : c = c' ∧ rest = rest' := by simpa using heq
          exact hletter

/-! ## Mapped types -/

/-- The text of a mapped type is read as the mapped reference if and only if every name in it stays a name,
and refused otherwise. -/
theorem parse_render_mapTypeRef {t : Target} (ht : FollowsMarker t.known) {type : TypeRef}
    (h : type.isWritable = true) (mapped : TypeRef) :
    parse (t.mapTypeRef type).render = .ok mapped ↔
      (∀ n ∈ type.names, t.StaysName n) ∧ mapped = t.mapTypeRef type := by
  have hnames := isName_of_mem_names type h
  have hread : (∀ n ∈ type.names, t.StaysName n) →
      parse (t.mapTypeRef type).render = .ok (t.mapTypeRef type) := by
    intro hstay
    refine parse_render_of_isWritable (isWritable_mapNames t.mapName type h fun n hn => ?_)
    obtain ⟨c, rest, hword, -, hrest, hstart⟩ := exists_word_of_mapName ht (hnames n hn)
    rw [isName, hword]
    exact Bool.and_eq_true_iff.2 ⟨hstart.2 (hstay n hn), hrest⟩
  constructor
  · intro hparse
    have hstay : ∀ n ∈ type.names, t.StaysName n := by
      intro n hn
      obtain ⟨c, rest, hword, hpart, -, hstart⟩ := exists_word_of_mapName ht (hnames n hn)
      have hmem : (t.mapName n.1 n.2, n.2) ∈ (t.mapTypeRef type).names := by
        rw [mapTypeRef, names_mapNames]
        exact List.mem_map_of_mem hn
      have hbegins := beginsIn_render (t.mapTypeRef type) _ hmem
      rw [hword] at hbegins
      exact hstart.1 (isNameStart_of_parse hparse hbegins hpart)
    rw [hread hstay, Except.ok.injEq] at hparse
    exact ⟨hstay, hparse.symm⟩
  · rintro ⟨hstay, rfl⟩
    exact hread hstay

/-- Every accepted type is mapped to a text of the same shape with mapped names.  The text can be read
again, and then as the mapped reference, if and only if every name that is mapped to another one has a
letter of ASCII after its marker. -/
theorem parse_mapType_iff {config : Config} {settings : Settings} {elements : List ModelElement}
    {platform : String} {t : Target} (ht : config.target settings elements platform = .ok t)
    {text : String} {type : TypeRef} (h : parse text = .ok type) :
    ∃ mapped, t.mapType text = .ok mapped ∧ (t.mapTypeRef type).shape = type.shape ∧
      (t.mapTypeRef type).names = type.names.map (fun n => (t.mapName n.1 n.2, n.2)) ∧
        ∀ type', parse mapped = .ok type' ↔
          (∀ n ∈ type.names, t.StaysName n) ∧ type' = t.mapTypeRef type := by
  refine ⟨(t.mapTypeRef type).render, ?_, shape_mapNames t.mapName type,
    names_mapNames t.mapName type, ?_⟩
  · rw [mapType, h]
    rfl
  · exact parse_render_mapTypeRef (Config.followsMarker_of_target ht) (isWritable_of_parse h)

/-! A dictionary whose values are arrays of a known type, and a name with a letter beyond ASCII after its
marker, alone and in a list. -/

private def shapesConfig : Config where
  inputs := []
  outputRoot := ⟨0, ["out"]⟩
  platform := "wpf"
  rootNamespace := "M"
  collections := .empty
  verbose := false
  logDirectory := none

private def shapeDeclared : ModelElement := ⟨⟨"IShape", "M", [], [], [], [], none⟩, none, []⟩

private def shapesTarget : Target := shapesConfig.targetOn .default [shapeDeclared] .wpf

private def shapesByName (shape : String) : TypeRef :=
  .mk "IDictionary" [.mk "string" [] false [], .mk shape [] true [""]] false []

theorem parse_mapType_of_dictionary :
    shapesConfig.target .default [shapeDeclared] "wpf" = .ok shapesTarget ∧
      parse "IDictionary<string,IShape?[]>" = .ok (shapesByName "IShape") ∧
        shapesTarget.mapType "IDictionary<string,IShape?[]>" = .ok "IDictionary<string, Shape?[]>" ∧
          parse "IDictionary<string, Shape?[]>" = .ok (shapesByName "Shape") := by
  have htarget : shapesConfig.target .default [shapeDeclared] "wpf" = .ok shapesTarget := rfl
  have hparse : parse "IDictionary<string,IShape?[]>" = .ok (shapesByName "IShape") := by
    decide +kernel
  have hmapType : shapesTarget.mapType "IDictionary<string,IShape?[]>" =
      .ok "IDictionary<string, Shape?[]>" := by decide +kernel
  have hmapTypeRef : shapesTarget.mapTypeRef (shapesByName "IShape") = shapesByName "Shape" := by
    decide +kernel
  obtain ⟨mapped, hmapped, -, -, hread⟩ := parse_mapType_iff htarget hparse
  obtain rfl := Except.ok.inj (hmapType.symm.trans hmapped)
  have hstay : ∀ n ∈ (shapesByName "IShape").names, shapesTarget.StaysName n := by
    have hnames : (shapesByName "IShape").names =
      [("IDictionary", true), ("string", false), ("IShape", false)] := by decide
    rw [hnames]
    simp only [List.forall_mem_cons]
    refine ⟨.inl (by decide +kernel), .inl (by decide +kernel), .inr ?_, by simp⟩
    exact ⟨'S', "hape".toList, by decide, by decide⟩
  exact ⟨htarget, hparse, hmapType, (hread _).2 ⟨hstay, hmapTypeRef.symm⟩⟩

/-- A class of an accepted type is not accepted as a type. -/
theorem mapped_umlaut_refused :
    shapesConfig.target .default [shapeDeclared] "wpf" = .ok shapesTarget ∧
      parse "IÄpfel" = .ok (.mk "IÄpfel" [] false []) ∧
        shapesTarget.mapType "IÄpfel" = .ok "Äpfel" ∧
          parse "Äpfel" = .error (.malformedType "Äpfel") ∧
      parse "IList<IÄpfel?>[]" = .ok (.mk "IList" [.mk "IÄpfel" [] true []] false [""]) ∧
        shapesTarget.mapType "IList<IÄpfel?>[]" = .ok "IList<Äpfel?>[]" ∧
          parse "IList<Äpfel?>[]" = .error (.malformedType "IList<Äpfel?>[]") := by
  refine ⟨rfl, ?_⟩
  decide +kernel

end Target

end PlatformClasses
