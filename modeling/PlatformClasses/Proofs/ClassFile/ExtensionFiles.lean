import PlatformClasses.Proofs.ClassFile.Contents
import PlatformClasses.Proofs.ClassFile.PlatformFiles
import PlatformClasses.Proofs.Draft.Spelling
import PlatformClasses.Proofs.Source.Readers
import PlatformClasses.SourceFile

/-!
# Files of extension methods

The file of a class of extension methods spells a source of setter methods, if the names and types of the
declaration that it is made for are plain.  Then it can be read as a source of the model itself, and no
interface is found in it (`elements_of_read_extensions`).
-/

namespace PlatformClasses

open Source

/-! ## Pieces of the lines -/

namespace Source

/-- The extension method that a setter is. -/
def Setter.method (m : Setter) : ExtensionMethod := ⟨m.owner, m.property, m.receiver, m.type.render⟩

namespace Setter

variable {m : Setter}

theorem wellSpelled_signature (hm : m.IsPlain) : WellSpelled m.signature := by
  have howner := hm.owner.word
  have htype : WellSpelled (m.type.pieces ++ [.gap, .word "value", .mark ")"]) := by
    have hvalue : WellSpelled [.word "value", .mark ")"] :=
      .word_mark (by decide) (.mark (by decide))
    refine m.type.wellSpelled_pieces_append hm.type (WellSpelled.nil.append_gap hvalue) ?_
    simp [TypeRef.FollowsType]
  have hreceiver : WellSpelled ([.word m.receiver, .mark ","] ++ .gap ::
      (m.type.pieces ++ [.gap, .word "value", .mark ")"])) :=
    (WellSpelled.word_mark hm.receiver.word (.mark (by decide))).append_gap htype
  have hparameters : WellSpelled ([.word m.property, .mark "(", .word "this"] ++ .gap ::
      ([.word m.owner] ++ .gap :: ([.word m.receiver, .mark ","] ++ .gap ::
        (m.type.pieces ++ [.gap, .word "value", .mark ")"])))) :=
    (WellSpelled.word_mark hm.property.word (.mark_word (by decide) (.word (by decide)))).append_gap
      ((WellSpelled.word howner).append_gap hreceiver)
  exact (WellSpelled.word (by decide)).append_gap ((WellSpelled.word (by decide)).append_gap
    ((WellSpelled.word howner).append_gap hparameters))

theorem wellSpelled_assignment (hm : m.IsPlain) : WellSpelled m.assignment := by
  have hvalue : WellSpelled [.word "value", .mark ";"] := .word_mark (by decide) (.mark (by decide))
  have hproperty : WellSpelled [.word m.receiver, .mark ".", .word m.property] :=
    .word_mark hm.receiver.word (.mark_word (by decide) (.word hm.property.word))
  exact hproperty.append_gap ((WellSpelled.mark (by decide)).append_gap hvalue)

theorem wellSpelled_result (hm : m.IsPlain) : WellSpelled m.result := by
  have hreceiver : WellSpelled [.word m.receiver, .mark ";"] :=
    .word_mark hm.receiver.word (.mark (by decide))
  exact (WellSpelled.word (by decide)).append_gap hreceiver

/-- The pieces of a signature make up the line that an extension method begins with. -/
theorem textOf_signature (hm : m.IsPlain) : Piece.textOf m.signature =
    s!"public static {m.owner} {m.property}(this {m.owner} {m.receiver}, " ++
      s!"{m.type.render} value)" := by
  rw [← String.toList_inj]
  simp [signature, Piece.text, ToString.toString, m.type.textOf_pieces hm.type]

theorem textOf_assignment : Piece.textOf m.assignment = s!"{m.receiver}.{m.property} = value;" := by
  rw [← String.toList_inj]
  simp [assignment, Piece.text, ToString.toString]

theorem textOf_result : Piece.textOf m.result = s!"return {m.receiver};" := by
  rw [← String.toList_inj]
  simp [result, Piece.text, ToString.toString]

/-- The lines of an extension method spell the setter. -/
theorem adds_draft (hm : m.IsPlain) (d : Draft) : Draft.Adds d (m.method.draft d) m.faces := by
  have hbody : ∀ d : Draft, Draft.Adds d
      ((d.line s!"{m.receiver}.{m.property} = value;").line s!"return {m.receiver};")
        (Piece.facesOf m.assignment ++ Piece.facesOf m.result) := fun d =>
    (Draft.Adds.line (wellSpelled_assignment hm) textOf_assignment d).trans
      (.line (wellSpelled_result hm) textOf_result _)
  have hsignature := (Draft.Adds.separate d).trans
    (.line (wellSpelled_signature hm) (textOf_signature hm) d.separate)
  have hdraft := hsignature.trans (.braced hbody _)
  rwa [List.nil_append, List.append_assoc] at hdraft

end Setter

namespace SetterSource

variable {s : SetterSource}

/-- The class of extension methods that a source of setter methods declares. -/
def extensionClass (s : SetterSource) : ExtensionClass :=
  ⟨s.members.name, s.nameSpace, s.usings, s.members.setters.map Setter.method⟩

/-- A directive for a qualified name can be cut into its pieces again. -/
theorem wellSpelled_usingLine {name : String} (hname : IsQualified name) :
    WellSpelled (usingLine name) :=
  (WellSpelled.word (by decide)).append_gap
    (wellSpelled_namePieces_append hname (.mark (by decide)) (by simp [Piece.FollowsWord]))

theorem textOf_usingLine (name : String) : Piece.textOf (usingLine name) = s!"using {name};" := by
  rw [← String.toList_inj]
  simp [usingLine, Piece.text, ToString.toString, textOf_namePieces]

theorem wellSpelled_nameSpaceLine (hs : s.IsPlain) : WellSpelled s.nameSpaceLine := by
  have hname := wellSpelled_namePieces_append hs.nameSpace .nil (by simp)
  rw [List.append_nil] at hname
  exact (WellSpelled.word (by decide)).append_gap hname

theorem textOf_nameSpaceLine : Piece.textOf s.nameSpaceLine = s!"namespace {s.nameSpace}" := by
  rw [← String.toList_inj]
  simp [nameSpaceLine, Piece.text, ToString.toString, textOf_namePieces]

theorem wellSpelled_head (hs : s.IsPlain) : WellSpelled s.members.head :=
  (WellSpelled.word (by decide)).append_gap ((WellSpelled.word (by decide)).append_gap
    ((WellSpelled.word (by decide)).append_gap (.word hs.members.name.word)))

theorem textOf_head : Piece.textOf s.members.head = s!"public static class {s.members.name}" := by
  rw [← String.toList_inj]
  simp [SetterClass.head, Piece.text, ToString.toString]

end SetterSource

end Source

/-! ## The header -/

namespace ClassFile

/-- The comment in the header of a file, after its slashes. -/
def headerComment (sourceName : String) : String :=
  " This file is generated from " ++ sourceName ++ ".cs. " ++
    "Update the source file to change its contents."

/-- The header is a comment, so that a reader passes over it. -/
theorem headerLine_eq (sourceName : String) :
    headerLine sourceName = "//" ++ headerComment sourceName := by
  have hslashes : "// This file is generated from " = "//" ++ " This file is generated from " := by
    decide +kernel
  have hassoc : ∀ a b c d e : String, a ++ b ++ c ++ d ++ e = a ++ (b ++ c ++ d ++ e) := by
    intros
    simp only [String.append_assoc]
  exact (congrArg (fun s => s ++ sourceName ++ ".cs. " ++
    "Update the source file to change its contents.") hslashes).trans (hassoc _ _ _ _ _)

/-- A file begins with its header and a blank line, at no depth. -/
theorem lines_draftHeader (indentSize : Int) (sourceName : String) :
    (draftHeader sourceName (Draft.empty indentSize)).lines =
      [⟨0, "//" ++ headerComment sourceName⟩, ⟨0, ""⟩] := by
  rw [← headerLine_eq]
  show (((Draft.empty indentSize).line (headerLine sourceName)).blank).lines = _
  rw [Draft.lines_blank, Draft.line, if_neg (headerLine_ne_blank sourceName)]
  rfl

theorem isOneLine_headerComment {sourceName : String} (hsource : IsWord sourceName) :
    IsOneLine (headerComment sourceName) :=
  .append (.append (.append (by decide +kernel) (.of_isWord hsource)) (by decide +kernel))
    (by decide +kernel)

end ClassFile

/-! ## Parts of a file -/

theorem eq_nil_of_isEmpty {d : Draft} {faces : List Face} (h : LinesSpell d.lines faces)
    (hempty : d.isEmpty = true) : faces = [] := by
  rw [List.isEmpty_iff.1 hempty] at h
  cases h
  rfl

namespace ClassFile

/-- Imports are spelled with or without a blank line after them. -/
theorem adds_imports {usings : List String} (husings : ∀ name ∈ usings, IsQualified name)
    (indentSize : Int) (d : Draft) :
    Draft.Adds d
      (if (draftImports indentSize usings).isEmpty then d
        else (d.splice (draftImports indentSize usings)).blank)
      (usings.flatMap fun name => Piece.facesOf (SetterSource.usingLine name)) := by
  have hlines : LinesSpell (draftImports indentSize usings).lines
      (usings.flatMap fun name => Piece.facesOf (SetterSource.usingLine name)) := by
    have hline : ∀ name ∈ usings, ∀ d : Draft, Draft.Adds d (d.line s!"using {name};")
        (Piece.facesOf (SetterSource.usingLine name)) := fun name hname =>
      .line (SetterSource.wellSpelled_usingLine (husings name hname))
        (SetterSource.textOf_usingLine name)
    obtain ⟨ls, hls, hspell⟩ := Draft.Adds.foldl hline (Draft.empty indentSize)
    rw [draftImports, Draft.addLines, List.foldl_map, hls]
    exact hspell
  split
  · next hempty =>
    rw [eq_nil_of_isEmpty hlines hempty]
    exact .refl d
  · have hadds := (Draft.Adds.splice hlines d).trans (.blank _)
    rwa [List.append_nil] at hadds

/-- One section is spelled whether or not it is left out for being empty. -/
theorem adds_body {body : Draft} {faces : List Face} (h : LinesSpell body.lines faces)
    (d : Draft) :
    Draft.Adds d (draftSections d ([body].filter fun s => !s.isEmpty)) faces := by
  cases hempty : body.isEmpty with
  | true =>
      rw [eq_nil_of_isEmpty h hempty]
      simpa [hempty, draftSections] using Draft.Adds.refl d
  | false => simpa [hempty, draftSections] using Draft.Adds.splice h d

end ClassFile

/-! ## The file -/

namespace Source.SetterSource

variable {s : SetterSource}

open ClassFile

/-- All that follows the header of a file of extension methods spells a source of setter methods. -/
theorem adds_extensionClass (hs : s.IsPlain) (indentSize : Int) (sourceName : String) :
    Draft.Adds (draftHeader sourceName (Draft.empty indentSize))
      (s.extensionClass.draft indentSize sourceName) s.faces := by
  have hmethods : LinesSpell (draftAll indentSize ExtensionMethod.draft
      s.extensionClass.methods).lines (s.members.setters.flatMap Setter.faces) := by
    have hmethod : ∀ m ∈ s.members.setters, ∀ d : Draft,
        Draft.Adds d (m.method.draft d) m.faces :=
      fun m hm => Setter.adds_draft (hs.members.setters m hm)
    obtain ⟨ls, hls, hspell⟩ := Draft.Adds.foldl hmethod (Draft.empty indentSize)
    rw [draftAll, extensionClass, List.foldl_map, hls]
    exact hspell
  have hclass : ∀ d : Draft, Draft.Adds d
      ((d.line s!"public static class {s.members.name}").braced fun d => draftSections d
        ([draftAll indentSize ExtensionMethod.draft s.extensionClass.methods].filter
          fun s => !s.isEmpty)) s.members.faces := fun d =>
    (Draft.Adds.line (wellSpelled_head hs) textOf_head d).trans
      (.braced (adds_body hmethods) _)
  have hnameSpace := Draft.Adds.line (wellSpelled_nameSpaceLine hs) textOf_nameSpaceLine
  exact (adds_imports hs.usings indentSize _).trans ((hnameSpace _).trans (.braced hclass _))

end Source.SetterSource

/-! ## Reading the file -/

theorem SourceFile.lineFeeds_of_not_mem {cs : List Char} (h : '\r' ∉ cs) :
    SourceFile.lineFeeds cs = cs := by
  induction cs with
  | nil => rfl
  | cons c cs ih =>
      rw [List.mem_cons, not_or] at h
      have hc : c ≠ '\r' := fun heq => h.1 heq.symm
      unfold lineFeeds
      split <;> simp_all

/-- A file that begins with a comment has no byte order mark. -/
theorem SourceFile.withoutMark_comment (cs : List Char) :
    withoutMark (Text.Utf8.encode ('/' :: cs)) = Text.Utf8.encode ('/' :: cs) := by
  have hfirst : Text.Utf8.encode ('/' :: cs) = 0x2f :: Text.Utf8.encode cs := rfl
  rw [hfirst, withoutMark, if_neg, if_neg] <;> simp [byteOrderMark]

/-- A file that begins with a comment is read as the text that was written to it, with line feeds for its
line ends. -/
theorem SourceFile.elements_of_read {reader : SourceReader} {tree : FileTree} {path : Path}
    {cs : List Char} (hread : tree.read path = .ok (Text.Utf8.encode ('/' :: cs))) :
    elements reader tree path =
      ModelElement.ofText reader (some path) (lineFeeds ('/' :: cs)) := by
  have htext : text tree path = .ok (lineFeeds ('/' :: cs)) := by
    simp only [text, hread, withoutMark_comment, Text.Utf8.decode_encode]
  rw [elements, htext]
  rfl

/-- The file of a plain class of extension methods declares no interfaces. -/
theorem elements_of_read_extensionClass {reader : SourceReader} (hreader : reader.ReadsSetters)
    {s : SetterSource} (hs : s.IsPlain) {sourceName : String}
    (hsource : IsWord sourceName) {indentSize : Int} {f : GeneratedFile}
    (hf : f.draft = s.extensionClass.draft indentSize sourceName) {tree : FileTree} {path : Path}
    (hread : tree.read path = .ok f.bytes) : SourceFile.elements reader tree path = .ok [] := by
  obtain ⟨ls, hlines, hspell⟩ := SetterSource.adds_extensionClass hs indentSize sourceName
  rw [ClassFile.lines_draftHeader, ← hf] at hlines
  have hcomment := ClassFile.isOneLine_headerComment hsource
  have hall : LinesSpell f.draft.lines s.faces := by
    rw [hlines]
    exact .comment 0 hcomment (.code 0 .nil hspell)
  have htext : ∃ cs, f.content.toList = '/' :: cs := by
    rw [GeneratedFile.content, Draft.text_eq_linesText, hlines]
    simp [Draft.lineText, Draft.indentation]
  obtain ⟨cs, hcs⟩ := htext
  have hspells := hall.spells f.draft.indentSize
  have hfeeds := not_mem_linesText hall.isOneLine f.draft.indentSize
  rw [← Draft.text_eq_linesText, ← GeneratedFile.content, hcs] at hspells hfeeds
  rw [GeneratedFile.bytes, hcs] at hread
  rw [SourceFile.elements_of_read hread, SourceFile.lineFeeds_of_not_mem hfeeds]
  exact hreader.ofText hs hspells (by simp) (some path)

/-! ## Plain declarations -/

/-- A declaration whose extension methods can be written with the names and types that it gives them. -/
structure Declaration.IsPlain (d : Declaration) : Prop where
  name : IsName d.name
  nameSpace : IsQualified d.nameSpace
  usings : ∀ name ∈ d.usings, IsQualified name
  /-- The names that are made of the name without its marker. -/
  made : ∀ className, Marker.strip? d.name = some className →
    IsName (className ++ "Extensions") ∧ IsName (Target.variableOfClass className)
  properties : ∀ p ∈ d.properties, p.isFluent = true →
    IsName p.name ∧ ∀ type, TypeRef.parse p.type = .ok type → type.isPlain = true

/-- A marked name is no word that could stand among modifiers. -/
theorem not_mem_softWords_of_strip? {name className : String}
    (h : Marker.strip? name = some className) :
    name ∉ Phrase.softModifierWords ++ ["record", "scoped"] := by
  have hlower : ∀ s ∈ Phrase.softModifierWords ++ ["record", "scoped"], s.toList.head? ≠ some 'I' := by
    decide
  have hfirst : name.toList.head? = some 'I' := by
    rw [Marker.eq_append_of_strip? h, String.toList_append]
    rfl
  exact fun hmem => hlower name hmem hfirst

namespace ClassSet

variable {t : Target} {e : ModelElement}

/-- The setter of a property. -/
def setterOf (d : Declaration) (receiver : String) (p : BackedProperty) : Option Setter :=
  if p.property.isFluent then some ⟨d.name, p.property.name, receiver, p.backing.source⟩ else none

/-- The extension methods of a class are those of the setters that its properties have. -/
theorem extensionMethods_eq (d : Declaration) (receiver : String) (ps : List BackedProperty) :
    ps.filterMap (·.extensionMethod? d.name receiver) =
      (ps.filterMap (setterOf d receiver)).map Setter.method := by
  rw [List.map_filterMap]
  refine List.filterMap_congr fun p _ => ?_
  cases h : p.property.isFluent <;>
    simp [BackedProperty.extensionMethod?, setterOf, h, Setter.method, Backing.sourceText]

/-- The variable of an element is that of its class. -/
theorem variableName_of_namesOf {names : Names} (h : namesOf t e = .ok names) :
    names.variableName = Target.variableOfClass names.className := by
  rw [namesOf_eq] at h
  obtain ⟨_, -, h⟩ := bind_eq_ok.1 h
  obtain ⟨_, -, h⟩ := bind_eq_ok.1 h
  obtain ⟨className, hclass, h⟩ := bind_eq_ok.1 h
  obtain ⟨variableName, hvariable, h⟩ := bind_eq_ok.1 h
  obtain ⟨nameSpace, -, h⟩ := bind_eq_ok.1 h
  obtain rfl := pure_eq_ok.1 h
  obtain ⟨className', hclass', rfl⟩ := map_eq_ok.1 hvariable
  obtain rfl := Except.ok.inj (hclass.symm.trans hclass')
  rfl

theorem exists_of_mem_allOrFault {α β : Type} {f : α → Except Fault β} {as : List α} {bs : List β}
    (h : allOrFault f as = .ok bs) {b : β} (hb : b ∈ bs) : ∃ a ∈ as, f a = .ok b := by
  rw [allOrFault_eq_ok_iff] at h
  have hmem : Except.ok b ∈ as.map f := by
    rw [h]
    exact List.mem_map_of_mem hb
  exact List.mem_map.1 hmem

/-- The extension methods of a plain declaration are plain. -/
theorem exists_setterSource (ht : Target.FollowsMarker t.known) (he : e.declaration.IsPlain)
    {classes : ClassSet} (h : ofElement t e = .ok classes) {c : ExtensionClass}
    (hc : classes.extensions = some c) :
    ∃ s : SetterSource, s.IsPlain ∧ s.extensionClass = c := by
  obtain ⟨names, ps, hnames, hps, -, hextensions⟩ := extensions_of_ofElement h
  have hstrip := (strip?_of_namesOf ht hnames).1
  obtain ⟨hclass, hvariable⟩ := he.made _ hstrip
  rw [hextensions] at hc
  split at hc
  · obtain rfl := Option.some.inj hc
    refine ⟨⟨e.declaration.usings, e.declaration.nameSpace, names.className ++ "Extensions",
      ps.filterMap (setterOf e.declaration names.variableName)⟩, ?_, ?_⟩
    · refine ⟨he.usings, he.nameSpace, hclass, fun m hm => ?_⟩
      obtain ⟨p, hp, hsetter⟩ := List.mem_filterMap.1 hm
      unfold setterOf at hsetter
      split at hsetter
      · next hfluent =>
        obtain rfl := Option.some.inj hsetter
        obtain ⟨property, hproperty, hbacked⟩ := exists_of_mem_allOrFault hps hp
        obtain ⟨backing, hbacking, rfl⟩ := map_eq_ok.1 hbacked
        obtain ⟨type, htype, rfl⟩ := map_eq_ok.1 hbacking
        obtain ⟨hname, hplain⟩ := he.properties property hproperty hfluent
        rw [← variableName_of_namesOf hnames] at hvariable
        exact ⟨he.name, not_mem_softWords_of_strip? hstrip, hname, hvariable, hplain type htype⟩
      · simp at hsetter
    · rw [SetterSource.extensionClass, extensionMethods_eq]
  · simp at hc

/-- The file of extension methods of a plain declaration declares no interfaces. -/
theorem elements_of_read_extensions {reader : SourceReader} (hreader : reader.ReadsSetters)
    (ht : Target.FollowsMarker t.known) (he : e.declaration.IsPlain)
    {classes : ClassSet} (h : ofElement t e = .ok classes) {c : ExtensionClass}
    (hc : classes.extensions = some c) {f : GeneratedFile}
    (hf : f.draft = c.draft t.indentSize classes.sourceName) {tree : FileTree} {path : Path}
    (hread : tree.read path = .ok f.bytes) : SourceFile.elements reader tree path = .ok [] := by
  obtain ⟨s, hs, rfl⟩ := exists_setterSource ht he h hc
  obtain ⟨_, _, -, -, hsource, -⟩ := extensions_of_ofElement h
  rw [hsource] at hf
  exact elements_of_read_extensionClass hreader hs he.name.word hf hread

/-- A file that may be there is that of the class that it is for, at the class's path. -/
theorem exists_of_mem_optionalFile {α : Type} {place : α → Destination} {draft : α → Draft}
    {o : Option α} {files : List GeneratedFile} (h : optionalFile t place draft o = .ok files)
    {f : GeneratedFile} (hf : f ∈ files) : ∃ c, o = some c ∧
      t.pathOf (place c).nameSpace (place c).className = .ok f.path ∧ f.draft = draft c := by
  cases o with
  | none =>
      obtain rfl : [] = files := Except.ok.inj h
      simp at hf
  | some c =>
      obtain ⟨path, hpath, rfl⟩ := map_eq_ok.1 h
      obtain rfl := List.mem_singleton.1 hf
      exact ⟨c, rfl, hpath, rfl⟩

/-- A generated file is that of the class or the attached class, or else that of the extension methods. -/
theorem mem_files_cases {classes : ClassSet} {files : List GeneratedFile}
    (h : classes.files t = .ok files) {f : GeneratedFile} (hf : f ∈ files) :
    (∃ d ∈ classes.ownPlaces, t.pathOf d.nameSpace d.className = .ok f.path) ∨
      ∃ c, classes.extensions = some c ∧ t.pathOf c.nameSpace c.name = .ok f.path ∧
        f.draft = c.draft t.indentSize classes.sourceName := by
  rw [files_eq] at h
  obtain ⟨path, hpath, h⟩ := bind_eq_ok.1 h
  obtain ⟨attached, hattached, h⟩ := bind_eq_ok.1 h
  obtain ⟨extensions, hextensions, h⟩ := bind_eq_ok.1 h
  obtain rfl := pure_eq_ok.1 h
  rcases List.mem_cons.1 hf with rfl | hf
  · exact .inl ⟨_, List.mem_cons_self, hpath⟩
  rcases List.mem_append.1 hf with hf | hf
  · obtain ⟨c, hclass, hplace, -⟩ := exists_of_mem_optionalFile hattached hf
    exact .inl ⟨⟨c.nameSpace, c.name⟩, by simp [ownPlaces, hclass], hplace⟩
  · exact .inr (exists_of_mem_optionalFile hextensions hf)

end ClassSet

end PlatformClasses
