import Mathlib.Data.List.FinRange
import PlatformClasses.Proofs.Declaration.Reading

/-!
# Grouping interfaces with their companions

The interfaces of a source are told apart by their places in it, since two of them may have the same
name or even the same text.  `grouped` is the grouping on items of any kind that have names, so it can
be applied to places as well as to declarations, and `ofSource_eq_ok` says that a source is grouped so.

An interface that is not an attached one always has an element of its own.  An attached one is found
again exactly once if neither its name nor that of its owner is given twice and its owner is not an
attached one itself; otherwise it gets lost, or it accompanies several elements.
-/

namespace PlatformClasses

namespace ModelElement

/-- A name has an owner if and only if it is the owner's with the ending of companions. -/
theorem ownerOf?_eq_some_iff {name owner : String} :
    ownerOf? name = some owner ↔ name = owner ++ companionEnding :=
  Text.beforeTrail?_eq_some_iff

theorem ownerOf?_append (owner : String) : ownerOf? (owner ++ companionEnding) = some owner :=
  ownerOf?_eq_some_iff.2 rfl

theorem append_companionEnding_inj {owner other : String} :
    owner ++ companionEnding = other ++ companionEnding ↔ owner = other := by
  constructor
  · intro h
    have howner := ownerOf?_append owner
    rw [h, ownerOf?_append] at howner
    exact (Option.some.inj howner).symm
  · rintro rfl
    rfl

section Groups

variable {α β : Type} (name : α → String)

/-- The last of the items that have a name. -/
def lastNamed? (items : List α) (n : String) : Option α := items.reverse.find? fun x => name x = n

/-- The items that are no attached ones. -/
def owners (items : List α) : List α := items.filter fun x => (ownerOf? (name x)).isNone

/-- The items that are no attached ones, each with the last of the attached ones that accompany it. -/
def grouped (items : List α) : List (α × Option α) :=
  (owners name items).map fun x => (x, lastNamed? name items (name x ++ companionEnding))

/-- The items in groups. -/
def members (groups : List (α × Option α)) : List α := groups.flatMap fun g => g.1 :: g.2.toList

/-! ## The grouping of a source -/

theorem lastNamed?_cons (x : α) (items : List α) (n : String) :
    lastNamed? name (x :: items) n =
      (lastNamed? name items n).or (if name x = n then some x else none) := by
  by_cases h : name x = n <;> simp [lastNamed?, List.find?_append, h]

theorem name_of_lastNamed? {items : List α} {n : String} {x : α}
    (h : lastNamed? name items n = some x) : x ∈ items ∧ name x = n := by
  have hmem := List.mem_of_find?_eq_some h
  have hname := List.find?_some h
  exact ⟨List.mem_reverse.1 hmem, by simpa using hname⟩

theorem exists_lastNamed?_of_mem {items : List α} {x : α} (hx : x ∈ items) :
    ∃ y, lastNamed? name items (name x) = some y := by
  cases h : lastNamed? name items (name x) with
  | some y => exact ⟨y, rfl⟩
  | none =>
      have hne := List.find?_eq_none.1 h x (List.mem_reverse.2 hx)
      simp at hne

theorem lastNamed?_map (f : β → α) (items : List β) (n : String) :
    lastNamed? name (items.map f) n = (lastNamed? (fun x => name (f x)) items n).map f := by
  rw [lastNamed?, lastNamed?, ← List.map_reverse, List.find?_map]
  rfl

/-- Grouping only looks at names. -/
theorem grouped_map (f : β → α) (items : List β) :
    grouped name (items.map f) =
      (grouped (fun x => name (f x)) items).map fun g => (f g.1, g.2.map f) := by
  simp [grouped, owners, List.filter_map, lastNamed?_map, Function.comp_def]

end Groups

/-- The companion of an owner is the last declaration of that name, or the one known before. -/
theorem get?_companions {origin : String} {known : List String} {declarations : List Declaration}
    {found result : Registry Declaration}
    (h : companions origin known found declarations = .ok result) (owner : String) :
    result.get? owner =
      (lastNamed? (·.name) declarations (owner ++ companionEnding)).or (found.get? owner) := by
  induction declarations generalizing found with
  | nil =>
      obtain rfl : found = result := by simpa [companions] using h
      simp [lastNamed?]
  | cons d rest ih =>
      rw [lastNamed?_cons]
      unfold companions at h
      cases hd : ownerOf? d.name with
      | none =>
          have hne : d.name ≠ owner ++ companionEnding := by
            intro heq
            rw [heq, ownerOf?_append] at hd
            simp at hd
          rw [hd] at h
          rw [ih h, if_neg hne, Option.or_none]
      | some other =>
          simp only [hd] at h
          split at h
          · rw [ih h, ownerOf?_eq_some_iff.1 hd]
            by_cases heq : other = owner
            · subst heq
              simp
            · have hne : other ++ companionEnding ≠ owner ++ companionEnding := fun hsame =>
                heq (append_companionEnding_inj.1 hsame)
              rw [Registry.get?_insert_of_ne found (Ne.symm heq), if_neg hne, Option.or_none]
          · simp at h

theorem declarations_ofDeclarations {d : Declaration} {companion : Option Declaration}
    {e : ModelElement} (h : ofDeclarations d companion = .ok e) :
    (e.declaration, e.companion) = (d, companion) := by
  cases companion with
  | none =>
      obtain rfl : _ = e := by simpa [ofDeclarations] using h
      rfl
  | some c =>
      unfold ofDeclarations at h
      split at h
      · next heq => simp at heq
      · next c' heq =>
        obtain rfl : c = c' := Option.some.inj heq
        split at h
        · obtain rfl : _ = e := by simpa using h
          rfl
        · simp at h

theorem withCompanions_eq_ok {found : Registry Declaration} {declarations : List Declaration}
    {elements : List ModelElement} (h : withCompanions found declarations = .ok elements) :
    elements.map (fun e => (e.declaration, e.companion)) =
      (owners (·.name) declarations).map fun d => (d, found.get? d.name) := by
  induction declarations generalizing elements with
  | nil =>
      obtain rfl : [] = elements := by simpa [withCompanions] using h
      rfl
  | cons d rest ih =>
      unfold withCompanions at h
      split at h
      · next hattached =>
        have hnone : (ownerOf? d.name).isNone = false := by
          rw [Option.isNone_eq_false_iff]
          exact hattached
        rw [ih h, owners, owners, List.filter_cons_of_neg (by simp [hnone])]
      · next hown =>
        have hnone : (ownerOf? d.name).isNone = true := by simpa using hown
        obtain ⟨e, he, h⟩ := bind_eq_ok.1 h
        obtain ⟨more, hmore, h⟩ := bind_eq_ok.1 h
        obtain rfl := pure_eq_ok.1 h
        rw [owners, List.filter_cons_of_pos (by simp [hnone]), List.map_cons, List.map_cons,
          declarations_ofDeclarations he, ih hmore, owners]

/-- The elements of a source are its interfaces as they are grouped. -/
theorem ofSource_eq_ok {origin : String} {declarations : List Declaration}
    {elements : List ModelElement} (h : ofSource origin declarations = .ok elements) :
    elements.map (fun e => (e.declaration, e.companion)) = grouped (·.name) declarations := by
  obtain ⟨found, hfound, h⟩ := bind_eq_ok.1 h
  rw [withCompanions_eq_ok h, grouped]
  refine List.map_congr_left fun d _ => ?_
  rw [get?_companions hfound, Registry.get?_empty, Option.or_none]

/-- The interface of an element is one of those of the source. -/
theorem declaration_mem_of_ofSource {origin : String} {declarations : List Declaration}
    {elements : List ModelElement} (h : ofSource origin declarations = .ok elements) {e : ModelElement}
    (he : e ∈ elements) : e.declaration ∈ declarations := by
  have hgroup : (e.declaration, e.companion) ∈ grouped (·.name) declarations := by
    rw [← ofSource_eq_ok h]
    exact List.mem_map_of_mem he
  obtain ⟨d, hd, heq⟩ := List.mem_map.1 hgroup
  rw [← (Prod.mk.inj heq).1]
  exact List.mem_of_mem_filter hd

/-! ## How often an item is in a group -/

section Counting

variable {α : Type} [DecidableEq α] (name : α → String)

/-- What is grouped is counted once as an owner and once for each owner that it is the companion of. -/
theorem count_members (items : List α) (x : α) :
    (members (grouped name items)).count x = (owners name items).count x +
      (owners name items).countP fun y =>
        lastNamed? name items (name y ++ companionEnding) == some x := by
  unfold grouped members
  induction owners name items with
  | nil => rfl
  | cons y rest ih =>
      rw [List.map_cons, List.flatMap_cons, List.count_append, ih, List.count_cons, List.countP_cons,
        List.count_cons]
      simp only
      have hcompanion : (lastNamed? name items (name y ++ companionEnding)).toList.count x =
          if (lastNamed? name items (name y ++ companionEnding) == some x) = true then 1 else 0 := by
        cases lastNamed? name items (name y ++ companionEnding) <;> simp [List.count_singleton]
      omega

/-- An interface that is not attached is in one group, its own. -/
theorem count_members_of_owner {items : List α} (hitems : items.Nodup) {x : α} (hx : x ∈ items)
    (hname : ownerOf? (name x) = none) : (members (grouped name items)).count x = 1 := by
  have hown : (owners name items).count x = 1 := by
    refine List.count_eq_one_of_mem (hitems.filter _) (List.mem_filter.2 ⟨hx, ?_⟩)
    simp [hname]
  have hcompanion : ((owners name items).countP fun y =>
      lastNamed? name items (name y ++ companionEnding) == some x) = 0 := by
    refine List.countP_eq_zero.2 fun y _ hy => ?_
    have hlast := (name_of_lastNamed? name (by simpa using hy)).2
    rw [hlast, ownerOf?_append] at hname
    simp at hname
  rw [count_members, hown, hcompanion]

/-- An attached interface is in as many groups as there are owners that it is the last one for. -/
theorem count_members_of_attached {items : List α} {x : α} {owner : String}
    (hname : ownerOf? (name x) = some owner) :
    (members (grouped name items)).count x =
      if lastNamed? name items (name x) = some x ∧ ownerOf? owner = none then
        (items.map name).count owner
      else 0 := by
  have hx : name x = owner ++ companionEnding := ownerOf?_eq_some_iff.1 hname
  have hown : (owners name items).count x = 0 := by
    refine List.count_eq_zero.2 fun hmem => ?_
    have hnone := (List.mem_filter.1 hmem).2
    simp [hname] at hnone
  have hcompanion : ((owners name items).countP fun y =>
      lastNamed? name items (name y ++ companionEnding) == some x) =
        (owners name items).countP fun y =>
          decide (name y = owner ∧ lastNamed? name items (name x) = some x) := by
    refine List.countP_congr fun y _ => ?_
    simp only [beq_iff_eq, decide_eq_true_eq]
    constructor
    · intro hlast
      have hy := (name_of_lastNamed? name hlast).2
      rw [← hy] at hlast
      rw [hx] at hy
      exact ⟨(append_companionEnding_inj.1 hy).symm, hlast⟩
    · rintro ⟨rfl, hlast⟩
      rw [← hx]
      exact hlast
  rw [count_members, hown, hcompanion, Nat.zero_add, owners, List.countP_filter, List.count,
    List.countP_map]
  split
  · next h =>
    refine List.countP_congr fun y _ => ?_
    simp only [h.1, and_true, Bool.and_eq_true, decide_eq_true_eq, Function.comp_apply, beq_iff_eq]
    constructor
    · exact fun hy => hy.1
    · rintro rfl
      exact ⟨rfl, by simp [h.2]⟩
  · next h =>
    refine List.countP_eq_zero.2 fun y _ hy => h ?_
    simp only [Bool.and_eq_true, decide_eq_true_eq, Option.isNone_iff_eq_none] at hy
    exact ⟨hy.1.2, hy.1.1 ▸ hy.2⟩

/-- The names for which grouping loses or repeats nothing. -/
def Pairable (names : List String) : Prop :=
  ∀ n ∈ names, ∀ owner ∈ ownerOf? n,
    ownerOf? owner = none ∧ names.count owner = 1 ∧ names.count n = 1

instance (names : List String) : Decidable (Pairable names) := by
  unfold Pairable
  infer_instance

theorem count_name_eq_one_iff {items : List α} (hitems : items.Nodup) {x : α} (hx : x ∈ items) :
    (items.map name).count (name x) = 1 ↔ ∀ y ∈ items, name y = name x → y = x := by
  rw [List.count, List.countP_map]
  constructor
  · intro hone y hy hname
    rw [List.countP_eq_length_filter, List.length_eq_one_iff] at hone
    obtain ⟨z, hz⟩ := hone
    have hmem : ∀ w ∈ items, name w = name x → w = z := by
      intro w hw hwname
      have hin : w ∈ items.filter ((· == name x) ∘ name) := by simp [hw, hwname]
      rw [hz] at hin
      exact List.mem_singleton.1 hin
    rw [hmem y hy hname, hmem x hx rfl]
  · intro honly
    rw [← List.count_eq_one_of_mem hitems hx, List.count]
    refine List.countP_congr fun y hy => ?_
    simp only [Function.comp_apply, beq_iff_eq]
    constructor
    · exact honly y hy
    · rintro rfl
      rfl

/-- Every item is in exactly one group if and only if the names are pairable. -/
theorem count_members_eq_one_iff {items : List α} (hitems : items.Nodup) :
    (∀ x ∈ items, (members (grouped name items)).count x = 1) ↔ Pairable (items.map name) := by
  constructor
  · intro hcount n hn owner howner
    obtain ⟨x, hx, rfl⟩ := List.mem_map.1 hn
    have hx1 := hcount x hx
    rw [count_members_of_attached name howner] at hx1
    split at hx1
    · next h =>
      refine ⟨h.2, hx1, (count_name_eq_one_iff name hitems hx).2 fun y hy hname => ?_⟩
      have hy1 := hcount y hy
      rw [count_members_of_attached name (by rw [hname]; exact howner)] at hy1
      split at hy1
      · next h' =>
        rw [hname, h.1] at h'
        exact (Option.some.inj h'.1).symm
      · omega
    · omega
  · intro hpairable x hx
    cases howner : ownerOf? (name x) with
    | none => exact count_members_of_owner name hitems hx howner
    | some owner =>
        obtain ⟨hproper, hone, hself⟩ := hpairable (name x) (List.mem_map_of_mem hx) owner howner
        obtain ⟨y, hy⟩ := exists_lastNamed?_of_mem name hx
        obtain ⟨hmem, hname⟩ := name_of_lastNamed? name hy
        obtain rfl := (count_name_eq_one_iff name hitems hx).1 hself y hmem hname
        rw [count_members_of_attached name howner, if_pos ⟨hy, hproper⟩]
        exact hone

end Counting

/-! ## The interfaces of a text -/

/-- The elements of a text are its interfaces as they are grouped by their places, and each interface is
in exactly one of the groups if and only if the names of the interfaces are pairable.  This holds for
every reader of sources. -/
theorem interfaces_grouped_once_iff {reader : SourceReader} {sourceFile : Option Path}
    {text : List Char} {elements : List ModelElement}
    (h : ofText reader sourceFile text = .ok elements) :
    ∃ nodes, reader.treeOf? text = some nodes ∧
      ∃ declarations : List Declaration,
        Declaration.ofTree (originOf sourceFile) sourceFile nodes = .ok declarations ∧
          declarations.map (·.name) =
            (Declaration.interfacesOfAll [Source.Node.sourceKindName] nodes).map (·.name) ∧
          ∃ groups : List (Fin declarations.length × Option (Fin declarations.length)),
            groups = grouped (fun i => declarations[i].name) (List.finRange declarations.length) ∧
              elements.map (fun e => (e.declaration, e.companion)) =
                groups.map (fun g => (declarations[g.1], g.2.map (declarations[·]))) ∧
              ((∀ i, (members groups).count i = 1) ↔ Pairable (declarations.map (·.name))) := by
  obtain ⟨nodes, declarations, htree, hdeclarations, helements⟩ := ofText_eq_ok.1 h
  refine ⟨nodes, htree, declarations, hdeclarations, Declaration.name_of_ofTree hdeclarations,
    _, rfl, ?_, ?_⟩
  · have hplaces : (List.finRange declarations.length).map (fun i => declarations[i]) =
        declarations := by
      simp
    have hgrouped := grouped_map (fun d : Declaration => d.name)
      (fun i : Fin declarations.length => declarations[i]) (List.finRange declarations.length)
    rw [hplaces] at hgrouped
    rw [ofSource_eq_ok helements, hgrouped]
  · have hnames : (List.finRange declarations.length).map (fun i => declarations[i].name) =
        declarations.map (·.name) := by
      refine List.ext_getElem (by simp) fun i _ _ => ?_
      simp
    rw [← hnames, ← count_members_eq_one_iff _ (List.nodup_finRange _)]
    simp

/-- An interface and its companion are each found again once. -/
theorem interfaces_grouped_once_of_pair :
    let names := ["IA", "IAAttached"]
    let declared := EmptyInterfaces.declaration none
    ofText .builtIn none (EmptyInterfaces.text names).toList =
        .ok [⟨declared "IA", some (declared "IAAttached"), []⟩] ∧
      ∃ declarations : List Declaration, declarations.map (·.name) = names ∧
        ∃ groups : List (Fin declarations.length × Option (Fin declarations.length)),
          [(declared "IA", some (declared "IAAttached"))] =
              groups.map (fun g => (declarations[g.1], g.2.map (declarations[·]))) ∧
            ∀ i, (members groups).count i = 1 := by
  intro names declared
  have htokens : Source.tokens? (EmptyInterfaces.text names).toList =
      some (EmptyInterfaces.tokens names) := by
    decide +kernel
  have htree : (Source.treeOfTokens? (EmptyInterfaces.tokens names)).map
      (fun nodes => (Declaration.interfacesOfAll [Source.Node.sourceKindName] nodes).map (·.name)) =
        some names := by
    decide +kernel
  have helements : ofText .builtIn none (EmptyInterfaces.text names).toList =
      .ok [⟨declared "IA", some (declared "IAAttached"), []⟩] := by
    refine ofText_of_tokens htokens rfl ?_
    decide +kernel
  obtain ⟨nodes, hnodes, declarations, -, hnames, groups, -, hgroups, honce⟩ :=
    interfaces_grouped_once_iff helements
  rw [SourceReader.treeOf?_builtIn, htokens, Option.bind_some] at hnodes
  rw [hnodes, Option.map_some] at htree
  rw [Option.some.inj htree] at hnames
  refine ⟨helements, declarations, hnames, groups, hgroups, honce.2 ?_⟩
  rw [hnames]
  decide +kernel

/-- The companion of a companion is accepted, and gets lost. -/
theorem companion_of_companion_lost :
    let names := ["IA", "IAAttached", "IAAttachedAttached"]
    let declared := EmptyInterfaces.declaration none
    ∃ nodes, SourceReader.builtIn.treeOf? (EmptyInterfaces.text names).toList = some nodes ∧
      (Declaration.interfacesOfAll [Source.Node.sourceKindName] nodes).map (·.name) = names ∧
        ofText .builtIn none (EmptyInterfaces.text names).toList =
          .ok [⟨declared "IA", some (declared "IAAttached"), []⟩] := by
  intro names declared
  have htokens : Source.tokens? (EmptyInterfaces.text names).toList =
      some (EmptyInterfaces.tokens names) := by
    decide +kernel
  have htree : (Source.treeOfTokens? (EmptyInterfaces.tokens names)).map
      (fun nodes => (Declaration.interfacesOfAll [Source.Node.sourceKindName] nodes).map (·.name)) =
        some names := by
    decide +kernel
  obtain ⟨nodes, hnodes, hnames⟩ := Option.map_eq_some_iff.1 htree
  refine ⟨nodes, ?_, hnames, ofText_of_tokens htokens rfl (by decide +kernel)⟩
  rw [SourceReader.treeOf?_builtIn, htokens]
  exact hnodes

end ModelElement

end PlatformClasses
