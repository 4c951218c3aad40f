import PlatformClasses.Config.Collections
import PlatformClasses.Proofs.ClassFile.ImportOrder
import PlatformClasses.Proofs.Declaration.Grouping
import PlatformClasses.Proofs.Declaration.Resolution
import PlatformClasses.Proofs.Declaration.UsingTexts
import PlatformClasses.Proofs.Path.Names

/-!
# Written registries

The entries of a text are what its commas divide it into (`Divides`).  An entry is white space, or a name
and a value with an equality sign between them and white space anywhere around them (`Item`), or it is
malformed (`IsMalformed`), and it is only one of these.  Reading goes on over entries of the first two
kinds and stops at the first of the third, so it fails exactly if there is one.

If there is none, the registry has the names in the order in which they first occur, each with the last
value that is given for it (`IsRegistryOf`).  A registry whose names and values can be written is read back
from its entries, however they are laid out.  Both are `registry_texts`.
-/

namespace PlatformClasses.Collections

open Declaration (BeginsVisibly)
open Source (EndsVisibly)
open TypeRef (Blanks)

/-! ## What is written -/

/-- The parts of a text between its separators. -/
inductive Divides (separator : Char) : List Char → List (List Char) → Prop
  | last {part : List Char} (h : separator ∉ part) : Divides separator part [part]
  | next {part rest : List Char} {parts : List (List Char)} (h : separator ∉ part)
      (hrest : Divides separator rest parts) :
      Divides separator (part ++ separator :: rest) (part :: parts)

/-- A text that has characters and neither begins nor ends with white space. -/
structure IsPart (cs : List Char) : Prop where
  begins : BeginsVisibly cs
  ends : EndsVisibly cs

/-- An entry as it is laid out: nothing but white space, or a name with a value. -/
inductive Item where
  | blank (gap : Blanks)
  | pair (name value : String) (before afterName beforeValue after : Blanks)

namespace Item

/-- The characters of an entry. -/
def chars : Item → List Char
  | blank gap => gap.chars
  | pair name value before afterName beforeValue after =>
      before.chars ++ name.toList ++ afterName.chars ++
        '=' :: (beforeValue.chars ++ value.toList ++ after.chars)

/-- The name and the value of an entry. -/
def pair? : Item → Option (String × String)
  | blank _ => none
  | pair name value _ _ _ _ => some (name, value)

/-- An entry whose name and value can be told apart from what is around them. -/
def IsProper : Item → Prop
  | blank _ => True
  | pair name value _ _ _ _ => IsPart name.toList ∧ '=' ∉ name.toList ∧ IsPart value.toList

end Item

/-- The text of entries, with commas between them. -/
def textOf (layout : List Item) : String :=
  String.ofList (List.intercalate [','] (layout.map Item.chars))

/-- A registry whose names and values can be written. -/
structure IsWritable (r : Registry String) : Prop where
  nodup : r.names.Nodup
  name : ∀ e ∈ r.entries, IsPart e.1.toList ∧ ',' ∉ e.1.toList ∧ '=' ∉ e.1.toList
  value : ∀ e ∈ r.entries, IsPart e.2.toList ∧ ',' ∉ e.2.toList

/-- An entry that is not blank and has no equality sign, or has nothing but white space on a side of the
first one. -/
inductive IsMalformed : List Char → Prop
  | unmarked {entry : List Char} (hvisible : ∃ c ∈ entry, Text.isBlank c = false) (h : '=' ∉ entry) :
      IsMalformed entry
  | missing {before after : List Char} (hfirst : '=' ∉ before)
      (h : (∀ c ∈ before, Text.isBlank c = true) ∨ ∀ c ∈ after, Text.isBlank c = true) :
      IsMalformed (before ++ '=' :: after)

/-- A registry of names in the order in which they first occur, each with the last value given for it. -/
structure IsRegistryOf (pairs : List (String × String)) (r : Registry String) : Prop where
  names : FirstOccurrences (pairs.map (·.1)) r.names
  value : ∀ name, r.get? name = (ModelElement.lastNamed? (·.1) pairs name).map (·.2)

/-! ## Commas -/

/-- A text is divided at its separators in one way. -/
theorem Divides.eq_piecesOf {separator : Char} {text : List Char} {parts : List (List Char)}
    (h : Divides separator text parts) : parts = Text.piecesOf separator text := by
  induction h with
  | last h => rw [Text.piecesOf_of_not_mem h]
  | @next part rest parts h _ ih =>
      have hrest : Text.piecesOf separator (separator :: rest) = [] :: parts := by
        simp [Text.piecesOf, ih]
      rw [Text.piecesOf_append h _ hrest, List.append_nil]

theorem divides_piecesOf (separator : Char) (text : List Char) :
    Divides separator text (Text.piecesOf separator text) := by
  induction text with
  | nil => exact .last (by simp)
  | cons c rest ih =>
      unfold Text.piecesOf
      split
      · next hc =>
        obtain rfl : c = separator := by simpa using hc
        have hnone : c ∉ ([] : List Char) := by simp
        exact .next hnone ih
      · next hc =>
        have hne : separator ≠ c := fun heq => hc (by simp [heq])
        split
        · next piece pieces hpieces =>
          rw [hpieces] at ih
          cases ih with
          | last h => exact .last (by simp [hne, h])
          | next h hmore =>
              have hpiece : separator ∉ c :: piece := by simp [hne, h]
              exact .next hpiece hmore
        · next hpieces => exact absurd hpieces (Text.piecesOf_ne_nil separator rest)

/-- Parts without separators are what a text is divided into that joins them. -/
theorem divides_intercalate {separator : Char} {parts : List (List Char)} (hne : parts ≠ [])
    (h : ∀ part ∈ parts, separator ∉ part) :
    Divides separator (List.intercalate [separator] parts) parts := by
  induction parts with
  | nil => exact absurd rfl hne
  | cons part rest ih =>
      have hpart : separator ∉ part := h part List.mem_cons_self
      cases rest with
      | nil => simpa using Divides.last hpart
      | cons next more =>
          have hrest := ih (by simp) fun p hp => h p (List.mem_cons_of_mem part hp)
          simpa using Divides.next hpart hrest

/-! ## White space -/

/-- A gap holds white space only. -/
theorem not_mem_chars {c : Char} (hc : Text.isBlank c = false) (gap : Blanks) : c ∉ gap.chars := by
  intro hmem
  simp [gap.areBlank c hmem] at hc

theorem trimRightChars_of_blank {cs : List Char} (h : ∀ c ∈ cs, Text.isBlank c = true) :
    Text.trimRightChars cs = [] := by
  have hreverse : cs.reverse.dropWhile Text.isBlank = [] :=
    List.dropWhile_eq_nil_iff.2 fun c hc => h c (List.mem_reverse.1 hc)
  rw [Text.trimRightChars, hreverse, List.reverse_nil]

/-- Of white space, trimming leaves nothing. -/
theorem trimChars_of_blank {cs : List Char} (h : ∀ c ∈ cs, Text.isBlank c = true) :
    Text.trimChars cs = [] := by
  rw [Text.trimChars, List.dropWhile_eq_nil_iff.2 h, trimRightChars_of_blank (by simp)]

theorem IsPart.ne_nil {cs : List Char} (h : IsPart cs) : cs ≠ [] := by
  obtain ⟨c, rest, rfl, -⟩ := h.begins
  simp

/-- What stands between two parts makes them one. -/
theorem IsPart.append {cs cs' : List Char} (h : IsPart cs) (h' : IsPart cs') (between : List Char) :
    IsPart (cs ++ between ++ cs') := by
  obtain ⟨c, rest, rfl, hc⟩ := h.begins
  obtain ⟨d, hd, inside, rfl⟩ := h'.ends
  exact ⟨⟨c, rest ++ between ++ (inside ++ [d]), by simp, hc⟩,
    d, hd, c :: rest ++ between ++ inside, by simp⟩

/-- Trimming takes the gaps around a part away. -/
theorem IsPart.trimChars {cs : List Char} (h : IsPart cs) (front back : Blanks) :
    Text.trimChars (front.chars ++ cs ++ back.chars) = cs := by
  obtain ⟨c, hc, most, hlast⟩ := h.ends
  exact TypeRef.trim_append_of_stops front.areBlank back.areBlank h.begins ⟨most, c, hlast, hc⟩

/-- A text that is not blank begins with a gap and a visible character. -/
theorem exists_first_visible {cs : List Char} (h : ∃ c ∈ cs, Text.isBlank c = false) :
    ∃ (gap : Blanks) (c : Char) (rest : List Char),
      cs = gap.chars ++ c :: rest ∧ Text.isBlank c = false := by
  induction cs with
  | nil => simp at h
  | cons c rest ih =>
      by_cases hc : Text.isBlank c = true
      · have hrest : ∃ d ∈ rest, Text.isBlank d = false := by
          obtain ⟨d, hd, hvisible⟩ := h
          obtain rfl | hd := List.mem_cons.1 hd
          · simp [hc] at hvisible
          · exact ⟨d, hd, hvisible⟩
        obtain ⟨gap, d, more, rfl, hd⟩ := ih hrest
        have hgap : ∀ x ∈ c :: gap.chars, Text.isBlank x = true := by
          simpa [hc] using gap.areBlank
        exact ⟨⟨c :: gap.chars, hgap⟩, d, more, rfl, hd⟩
      · exact ⟨⟨[], by simp⟩, c, rest, rfl, by simpa using hc⟩

/-- A text that is not all white space has a part in it, with white space around. -/
theorem exists_part {cs : List Char} (h : ∃ c ∈ cs, Text.isBlank c = false) :
    ∃ (front : Blanks) (part : List Char) (back : Blanks),
      cs = front.chars ++ part ++ back.chars ∧ IsPart part := by
  obtain ⟨front, c, rest, rfl, hc⟩ := exists_first_visible h
  have hreverse : ∃ x ∈ (c :: rest).reverse, Text.isBlank x = false := ⟨c, by simp, hc⟩
  obtain ⟨gap, d, more, hlast, hd⟩ := exists_first_visible hreverse
  have hrest : c :: rest = more.reverse ++ [d] ++ gap.chars.reverse := by
    rw [← List.reverse_reverse (c :: rest), hlast]
    simp
  have hgap : ∀ x ∈ gap.chars.reverse, Text.isBlank x = true :=
    fun x hx => gap.areBlank x (List.mem_reverse.1 hx)
  have hbegins : BeginsVisibly (more.reverse ++ [d]) := by
    cases hmore : more.reverse with
    | nil => exact ⟨d, [], rfl, hd⟩
    | cons x xs =>
        rw [hmore] at hrest
        obtain rfl : c = x := (List.cons.inj hrest).1
        exact ⟨c, xs ++ [d], rfl, hc⟩
  refine ⟨front, more.reverse ++ [d], ⟨gap.chars.reverse, hgap⟩, ?_, hbegins, d, hd, _, rfl⟩
  rw [List.append_assoc, ← hrest]

/-! ## One entry -/

/-- A text is split at its first separator. -/
theorem splitFirst_append {separator : Char} {before : List Char} (h : separator ∉ before)
    (after : List Char) : splitFirst separator (before ++ separator :: after) = some (before, after) := by
  induction before with
  | nil => simp [splitFirst]
  | cons c rest ih =>
      simp only [List.mem_cons, not_or] at h
      simp [splitFirst, Ne.symm h.1, ih h.2]

theorem splitFirst_of_not_mem {separator : Char} {cs : List Char} (h : separator ∉ cs) :
    splitFirst separator cs = none := by
  induction cs with
  | nil => rfl
  | cons c rest ih =>
      simp only [List.mem_cons, not_or] at h
      simp [splitFirst, Ne.symm h.1, ih h.2]

/-- A name and a value are found between the white space around them. -/
theorem pairOf?_of_isPart {name value : String} (hname : IsPart name.toList)
    (hfree : '=' ∉ name.toList) (hvalue : IsPart value.toList) (afterName beforeValue : Blanks) :
    pairOf? (name.toList ++ (afterName.chars ++ '=' :: beforeValue.chars) ++ value.toList) =
      some (name, value) := by
  have hsplit : name.toList ++ (afterName.chars ++ '=' :: beforeValue.chars) ++ value.toList =
      (name.toList ++ afterName.chars) ++ '=' :: (beforeValue.chars ++ value.toList) := by
    simp
  have hbefore : '=' ∉ name.toList ++ afterName.chars := by
    simp [hfree, not_mem_chars (c := '=') (by decide) afterName]
  have htrimName : Text.trimChars (name.toList ++ afterName.chars) = name.toList := by
    simpa [Blanks.none] using hname.trimChars .none afterName
  have htrimValue : Text.trimChars (beforeValue.chars ++ value.toList) = value.toList := by
    simpa [Blanks.none] using hvalue.trimChars beforeValue .none
  rw [pairOf?, hsplit, splitFirst_append hbefore]
  simp [htrimName, htrimValue, hname.ne_nil, hvalue.ne_nil]

/-- The registry with the pair of an entry, if it has one. -/
def found (r : Registry String) (item : Item) : Registry String :=
  item.pair?.elim r fun e => r.insert e.1 e.2

/-- A proper item is read as what it stands for. -/
theorem parseEntries_item {item : Item} (h : item.IsProper) (r : Registry String)
    (rest : List (List Char)) :
    parseEntries r (item.chars :: rest) = parseEntries (found r item) rest := by
  cases item with
  | blank gap =>
      rw [parseEntries]
      simp [Item.chars, trimChars_of_blank gap.areBlank, found, Item.pair?]
  | pair name value before afterName beforeValue after =>
      obtain ⟨hname, hfree, hvalue⟩ := h
      have hcore := hname.append hvalue (afterName.chars ++ '=' :: beforeValue.chars)
      have hchars : (Item.pair name value before afterName beforeValue after).chars =
          before.chars ++ (name.toList ++ (afterName.chars ++ '=' :: beforeValue.chars) ++ value.toList) ++
            after.chars := by
        simp [Item.chars]
      rw [parseEntries, hchars, hcore.trimChars, pairOf?_of_isPart hname hfree hvalue]
      simp [found, Item.pair?]

/-- A malformed entry is the error, without the gaps around it. -/
theorem parseEntries_malformed {entry : List Char} (h : IsMalformed entry) (r : Registry String)
    (rest : List (List Char)) :
    parseEntries r (entry :: rest) = .error (String.ofList (Text.trimChars entry)) := by
  have hfails : Text.trimChars entry ≠ [] ∧ pairOf? (Text.trimChars entry) = none := by
    cases h with
    | unmarked hvisible h =>
        obtain ⟨front, part, back, rfl, hpart⟩ := exists_part hvisible
        have hmissing : '=' ∉ part := by
          simp only [List.mem_append, not_or] at h
          exact h.1.2
        rw [hpart.trimChars, pairOf?, splitFirst_of_not_mem hmissing]
        exact ⟨hpart.ne_nil, rfl⟩
    | @missing before after hfirst h =>
        have hmark : EndsVisibly (before.dropWhile Text.isBlank ++ ['=']) := ⟨'=', by decide, _, rfl⟩
        have htrim : Text.trimChars (before ++ '=' :: after) =
            before.dropWhile Text.isBlank ++ '=' :: Text.trimRightChars after := by
          rw [Text.trimChars, Source.dropWhile_before (by decide), List.append_cons,
            Declaration.trimRightChars_append hmark, ← List.append_cons]
        have hkept : '=' ∉ before.dropWhile Text.isBlank :=
          fun hmem => hfirst (List.dropWhile_sublist _ |>.subset hmem)
        rw [htrim, pairOf?, splitFirst_append hkept]
        refine ⟨by simp, ?_⟩
        obtain hblank | hblank := h
        · simp [List.dropWhile_eq_nil_iff.2 hblank, trimChars_of_blank]
        · simp [trimRightChars_of_blank hblank, trimChars_of_blank]
  rw [parseEntries]
  simp [hfails]

/-- Every entry is a proper item or malformed. -/
theorem exists_item_or_malformed (entry : List Char) :
    (∃ item : Item, item.IsProper ∧ item.chars = entry) ∨ IsMalformed entry := by
  by_cases hvisible : ∃ c ∈ entry, Text.isBlank c = false
  case neg =>
    have hblank : ∀ c ∈ entry, Text.isBlank c = true := by simpa using hvisible
    exact .inl ⟨.blank ⟨entry, hblank⟩, trivial, rfl⟩
  by_cases hmark : '=' ∈ entry
  case neg => exact .inr (.unmarked hvisible hmark)
  obtain ⟨before, after, rfl, hfirst⟩ := List.eq_append_cons_of_mem hmark
  by_cases hname : ∃ c ∈ before, Text.isBlank c = false
  case neg => exact .inr (.missing hfirst (.inl (by simpa using hname)))
  by_cases hvalue : ∃ c ∈ after, Text.isBlank c = false
  case neg => exact .inr (.missing hfirst (.inr (by simpa using hvalue)))
  obtain ⟨gap, name, afterName, rfl, hnamePart⟩ := exists_part hname
  obtain ⟨beforeValue, value, gap', rfl, hvaluePart⟩ := exists_part hvalue
  have hfree : '=' ∉ name := by
    simp only [List.mem_append, not_or] at hfirst
    exact hfirst.1.2
  refine .inl ⟨.pair (String.ofList name) (String.ofList value) gap afterName beforeValue gap', ?_, ?_⟩
  · simpa [Item.IsProper, hfree] using ⟨hnamePart, hvaluePart⟩
  · simp [Item.chars]

/-- No proper item is malformed. -/
theorem Item.IsProper.not_isMalformed {item : Item} (h : item.IsProper) :
    ¬ IsMalformed item.chars := by
  intro hmalformed
  have hread := parseEntries_item h .empty []
  rw [parseEntries_malformed hmalformed, parseEntries] at hread
  cases hread

/-! ## All entries -/

/-- Reading goes on over entries that are not malformed. -/
theorem parseEntries_layout {layout : List Item} (h : ∀ item ∈ layout, item.IsProper)
    (r : Registry String) (rest : List (List Char)) :
    parseEntries r (layout.map Item.chars ++ rest) = parseEntries (layout.foldl found r) rest := by
  induction layout generalizing r with
  | nil => rfl
  | cons item layout ih =>
      have hitem := parseEntries_item (h item List.mem_cons_self) r (layout.map Item.chars ++ rest)
      have hrest := ih (fun i hi => h i (List.mem_cons_of_mem item hi)) (found r item)
      exact hitem.trans hrest

/-- Reading items inserts their pairs in order. -/
theorem foldl_found (layout : List Item) (r : Registry String) :
    layout.foldl found r =
      (layout.filterMap Item.pair?).foldl (fun r e => r.insert e.1 e.2) r := by
  induction layout generalizing r with
  | nil => rfl
  | cons item layout ih =>
      cases item with
      | blank gap => exact ih r
      | pair name value _ _ _ _ => exact ih (r.insert name value)

/-- Proper items are read as the registry of their pairs. -/
theorem parseEntries_eq_ok {layout : List Item} (h : ∀ item ∈ layout, item.IsProper) :
    parseEntries .empty (layout.map Item.chars) =
      .ok (Registry.ofList (layout.filterMap Item.pair?)) := by
  have hread := parseEntries_layout h .empty []
  rw [List.append_nil, foldl_found] at hread
  exact hread

/-- Entries are proper items throughout, or up to a first one that is malformed. -/
theorem exists_layout_or_malformed (entries : List (List Char)) :
    (∃ layout : List Item, (∀ item ∈ layout, item.IsProper) ∧ layout.map Item.chars = entries) ∨
      ∃ (layout : List Item) (entry : List Char) (rest : List (List Char)),
        (∀ item ∈ layout, item.IsProper) ∧ entries = layout.map Item.chars ++ entry :: rest ∧
          IsMalformed entry := by
  induction entries with
  | nil => exact .inl ⟨[], by simp, rfl⟩
  | cons entry rest ih =>
      obtain ⟨item, hitem, rfl⟩ | hmalformed := exists_item_or_malformed entry
      · obtain ⟨layout, hlayout, rfl⟩ | ⟨layout, bad, more, hlayout, rfl, hbad⟩ := ih
        · exact .inl ⟨item :: layout, List.forall_mem_cons.2 ⟨hitem, hlayout⟩, rfl⟩
        · exact .inr ⟨item :: layout, bad, more, List.forall_mem_cons.2 ⟨hitem, hlayout⟩, rfl, hbad⟩
      · exact .inr ⟨[], entry, rest, by simp, rfl, hmalformed⟩

/-! ## The registry of pairs -/

theorem ofList_concat (pairs : List (String × String)) (e : String × String) :
    Registry.ofList (pairs ++ [e]) = (Registry.ofList pairs).insert e.1 e.2 := by
  simp [Registry.ofList]

/-- The names of a registry stand where they came up first. -/
theorem names_ofList (pairs : List (String × String)) :
    (Registry.ofList pairs).names = ClassSet.firstOccurrences (pairs.map (·.1)) := by
  induction pairs using List.reverseRecOn with
  | nil => rfl
  | append_singleton pairs e ih =>
      rw [ofList_concat, Registry.names_insert, ih, List.map_append, List.map_singleton,
        ClassSet.firstOccurrences_concat]

/-- The value of a name is the last one that was given to it. -/
theorem get?_ofList (pairs : List (String × String)) (name : String) :
    (Registry.ofList pairs).get? name =
      (ModelElement.lastNamed? (·.1) pairs name).map (·.2) := by
  induction pairs using List.reverseRecOn with
  | nil => rfl
  | append_singleton pairs e ih =>
      rw [ofList_concat]
      by_cases he : e.1 = name
      · obtain rfl := he
        simp [ModelElement.lastNamed?]
      · rw [Registry.get?_insert_of_ne _ (Ne.symm he), ih]
        simp [ModelElement.lastNamed?, he]

/-- A registry has the names in the order of their first places, with their last values. -/
theorem isRegistryOf_ofList (pairs : List (String × String)) :
    IsRegistryOf pairs (Registry.ofList pairs) := by
  constructor
  · rw [names_ofList]
    exact ClassSet.firstOccurrences_spec _
  · exact get?_ofList pairs

/-- Nothing is given twice in a registry, so its entries make it again. -/
theorem ofList_entries {r : Registry String} (h : r.names.Nodup) : Registry.ofList r.entries = r := by
  obtain ⟨entries⟩ := r
  change (entries.map (·.1)).Nodup at h
  show Registry.ofList entries = ⟨entries⟩
  induction entries using List.reverseRecOn with
  | nil => rfl
  | append_singleton entries e ih =>
      rw [List.map_append, List.map_singleton, List.nodup_append] at h
      obtain ⟨hnodup, -, hnew⟩ := h
      have hfresh : ∀ entry ∈ entries, entry.1 ≠ e.1 :=
        fun entry hentry => hnew _ (List.mem_map_of_mem hentry) _ List.mem_cons_self
      rw [ofList_concat, ih hnodup, Registry.insert, Registry.set_of_fresh _ hfresh]

/-! ## Texts -/

/-- The text of a layout is divided into its items. -/
theorem divides_textOf {layout : List Item} (hne : layout ≠ [])
    (h : ∀ item ∈ layout, ',' ∉ item.chars) :
    Divides ',' (textOf layout).toList (layout.map Item.chars) := by
  rw [textOf, String.toList_ofList]
  refine divides_intercalate (by simpa using hne) ?_
  intro part hpart
  obtain ⟨item, hitem, rfl⟩ := List.mem_map.1 hpart
  exact h item hitem

/-- The items of a writable registry are proper, whatever the layout. -/
theorem IsWritable.item {r : Registry String} (h : IsWritable r) {layout : List Item}
    (hlayout : layout.filterMap Item.pair? = r.entries) {item : Item} (hitem : item ∈ layout) :
    item.IsProper ∧ ',' ∉ item.chars := by
  have hcomma := not_mem_chars (c := ',') (by decide)
  cases item with
  | blank gap => exact ⟨trivial, hcomma gap⟩
  | pair name value before afterName beforeValue after =>
      have hentry : (name, value) ∈ r.entries := by
        rw [← hlayout]
        exact List.mem_filterMap.2 ⟨_, hitem, rfl⟩
      obtain ⟨hname, hnameComma, hfree⟩ := h.name _ hentry
      obtain ⟨hvalue, hvalueComma⟩ := h.value _ hentry
      exact ⟨⟨hname, hfree, hvalue⟩, by simp [Item.chars, hcomma, hnameComma, hvalueComma]⟩

/-- Whatever its layout, a written registry is read back. -/
theorem parse_textOf {r : Registry String} (h : IsWritable r) {layout : List Item}
    (hlayout : layout.filterMap Item.pair? = r.entries) : parse (textOf layout) = .ok r := by
  have hproper : ∀ item ∈ layout, item.IsProper := fun item hitem => (h.item hlayout hitem).1
  have hread : parse (textOf layout) = .ok (Registry.ofList (layout.filterMap Item.pair?)) := by
    cases layout with
    | nil => rfl
    | cons item rest =>
        have hdivides := divides_textOf (List.cons_ne_nil item rest)
          fun i hi => (h.item hlayout hi).2
        rw [parse, ← hdivides.eq_piecesOf, parseEntries_eq_ok hproper]
  rw [hread, hlayout, ofList_entries h.nodup]

/-- A registry whose names and values can be written is read from its entries, with any white space around
their parts and any blank entries between them.  Reading any text fails if and only if one of its entries
is malformed, and the error is the first of these; else the registry has the names in the order of their
first occurrences, each with its last value. -/
theorem registry_texts :
    (∀ (r : Registry String) (layout : List Item), IsWritable r →
      layout.filterMap Item.pair? = r.entries → parse (textOf layout) = .ok r) ∧
    ∀ text : String, ∃ entries : List (List Char), Divides ',' text.toList entries ∧
      ((∃ e, parse text = .error e) ↔ ∃ entry ∈ entries, IsMalformed entry) ∧
      (∀ e, parse text = .error e → ∃ before entry after, entries = before ++ entry :: after ∧
        (∀ other ∈ before, ¬ IsMalformed other) ∧ IsMalformed entry ∧
          e = String.ofList (Text.trimChars entry)) ∧
      ∀ r, parse text = .ok r → ∃ layout : List Item, (∀ item ∈ layout, item.IsProper) ∧
        layout.map Item.chars = entries ∧ IsRegistryOf (layout.filterMap Item.pair?) r := by
  refine ⟨fun r layout h hlayout => parse_textOf h hlayout, ?_⟩
  intro text
  refine ⟨Text.piecesOf ',' text.toList, divides_piecesOf ',' text.toList, ?_⟩
  unfold parse
  have hgood : ∀ {layout : List Item}, (∀ item ∈ layout, item.IsProper) →
      ∀ entry ∈ layout.map Item.chars, ¬ IsMalformed entry := by
    intro layout hproper entry hentry
    obtain ⟨item, hitem, rfl⟩ := List.mem_map.1 hentry
    exact (hproper item hitem).not_isMalformed
  obtain ⟨layout, hproper, hentries⟩ | ⟨layout, entry, rest, hproper, hentries, hmalformed⟩ :=
    exists_layout_or_malformed (Text.piecesOf ',' text.toList)
  · rw [← hentries, parseEntries_eq_ok hproper]
    refine ⟨⟨?_, ?_⟩, ?_, ?_⟩
    · rintro ⟨e, ⟨⟩⟩
    · rintro ⟨entry, hentry, hmalformed⟩
      exact absurd hmalformed (hgood hproper entry hentry)
    · rintro e ⟨⟩
    · rintro r ⟨⟩
      exact ⟨layout, hproper, rfl, isRegistryOf_ofList _⟩
  · rw [hentries, parseEntries_layout hproper, parseEntries_malformed hmalformed]
    refine ⟨⟨?_, ?_⟩, ?_, ?_⟩
    · exact fun _ => ⟨entry, by simp, hmalformed⟩
    · exact fun _ => ⟨_, rfl⟩
    · rintro e ⟨⟩
      exact ⟨_, entry, rest, rfl, hgood hproper, hmalformed, rfl⟩
    · rintro r ⟨⟩

private def someRegistry : Registry String := ⟨[("A", "B"), ("C D", "E=F")]⟩

private theorem isBlank_of_mem_space (c : Char) (h : c ∈ [' ']) : Text.isBlank c = true := by
  obtain rfl := List.mem_singleton.1 h
  decide

private def space : Blanks := ⟨[' '], isBlank_of_mem_space⟩

private def someLayout : List Item :=
  [.pair "A" "B" space .none space space, .blank .none, .pair "C D" "E=F" space space .none space,
    .blank space]

private theorem isWritable_someRegistry : IsWritable someRegistry := by
  have hpart : ∀ s ∈ ["A", "B", "C D", "E=F"], IsPart s.toList := by
    simp only [List.forall_mem_cons]
    refine ⟨⟨⟨'A', [], ?_⟩, 'A', ?_, [], ?_⟩, ⟨⟨'B', [], ?_⟩, 'B', ?_, [], ?_⟩,
      ⟨⟨'C', [' ', 'D'], ?_⟩, 'D', ?_, ['C', ' '], ?_⟩,
      ⟨⟨'E', ['=', 'F'], ?_⟩, 'F', ?_, ['E', '='], ?_⟩, by simp⟩
    all_goals decide
  constructor
  case nodup => decide
  case name =>
    simp only [someRegistry, List.forall_mem_cons]
    exact ⟨⟨hpart "A" (by decide), by decide⟩, ⟨hpart "C D" (by decide), by decide⟩, by simp⟩
  case value =>
    simp only [someRegistry, List.forall_mem_cons]
    exact ⟨⟨hpart "B" (by decide), by decide⟩, ⟨hpart "E=F" (by decide), by decide⟩, by simp⟩

theorem registry_texts_of_layout :
    textOf someLayout = " A= B ,, C D =E=F , " ∧ IsWritable someRegistry ∧
      someLayout.filterMap Item.pair? = someRegistry.entries ∧
      parse (textOf someLayout) = .ok someRegistry :=
  ⟨by decide +kernel, isWritable_someRegistry, rfl,
    registry_texts.1 someRegistry someLayout isWritable_someRegistry rfl⟩

end PlatformClasses.Collections
