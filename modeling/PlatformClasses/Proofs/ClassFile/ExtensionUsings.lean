import PlatformClasses.Proofs.ClassFile.Contents
import PlatformClasses.Proofs.Declaration.Grouping
import PlatformClasses.Proofs.Declaration.Nesting
import PlatformClasses.Proofs.Declaration.UsingTexts
import PlatformClasses.Proofs.Source.Readers

/-!
# Using directives of extension files

A file of extension methods has one line for each using directive of the source, in their order.  The line
is written from the text that the directive imports, so it is read again to see what it says.  It has the
tokens of the directive apart from `global` if the keywords of the directive are recognised in its text and
`static` is not taken away with them (`UsingTokens.readsAs_importLine_iff`).
-/

namespace PlatformClasses

open ClassFile Declaration Source

/-! ## Lines that are read again -/

/-- The tokens of a line, apart from the white space between them. -/
def ReadsAs (line : String) (faces : List Face) : Prop :=
  ∃ ts, tokens? line.toList = some ts ∧ Spelled faces ts

/-- A line is read in one way. -/
theorem ReadsAs.unique {line : String} {faces faces' : List Face} (h : ReadsAs line faces)
    (h' : ReadsAs line faces') : faces = faces' := by
  obtain ⟨ts, hts, hfaces, -⟩ := h
  obtain ⟨ts', hts', hfaces', -⟩ := h'
  obtain rfl := Option.some.inj (hts.symm.trans hts')
  exact List.append_cancel_right (hfaces.symm.trans hfaces')

/-- An import is read as its keyword and the tokens of its name. -/
theorem readsAs_importLine {name : String} {faces : List Face} (h : Spells (name.toList ++ [';']) faces) :
    ReadsAs (importLine name) ((.word, "using") :: faces) := by
  have hline : (importLine name).toList = "using".toList ++ ' ' :: (name.toList ++ [';']) := by
    simp [importLine, ToString.toString]
  have hspace : Spells ([' '] ++ (name.toList ++ [';'])) faces := h.spaces (by decide)
  have hword : Spells ("using".toList ++ ' ' :: (name.toList ++ [';'])) ((.word, "using") :: faces) := by
    refine hspace.word (by decide) ?_
    rintro c rest hc
    obtain ⟨rfl, -⟩ := List.cons.inj hc
    decide
  rw [← hline] at hword
  exact tokens?_of_spells hword (by rw [hline]; simp)

namespace Source

theorem spells_semicolon : Spells [';'] [(.mark, ";")] :=
  Spells.nil.mark (m := ";") (by decide) (by simp [EndsMark])

theorem exists_endsToken {gap : List Char} (hgap : gap.all isSpace = true) (rest : List Char) :
    ∃ c more, gap ++ ';' :: rest = c :: more ∧ EndsToken c := by
  cases gap with
  | nil => exact ⟨';', rest, rfl, List.mem_cons_self⟩
  | cons c gap =>
      rw [List.all_cons, Bool.and_eq_true] at hgap
      exact ⟨c, gap ++ ';' :: rest, rfl, endsToken_of_isSpace hgap.1⟩

namespace UsingTokens

variable {d : UsingTokens} {body after : List Char} (hproper : d.IsProper)
  (hlaid : d.LaidOut body after)

include hlaid in
/-- The tokens of a directive are read again before any other white space and semicolon. -/
theorem LaidOut.spells {t : Token} {ts : List Token} (hts : t :: ts <:+ d.front)
    {before behind rest : List Char} (hbefore : before.all isSpace = true)
    (hbehind : behind.all isSpace = true) {faces : List Face} (hrest : Spells (';' :: rest) faces) :
    Spells (before ++ (Token.verbatim (t :: ts)).toList ++ behind ++ ';' :: rest)
      ((t :: ts).map Token.face ++ faces) := by
  obtain ⟨body', hrow⟩ := hlaid.exists_row hts
  obtain ⟨c, more, hfollows, hc⟩ := exists_endsToken hlaid.gap after
  obtain ⟨c', more', hfollows', hc'⟩ := exists_endsToken hbehind rest
  rw [hfollows] at hrow
  have hend := hrest.spaces hbehind
  rw [hfollows'] at hend
  have hspells := (hrow.spells hc hc' hend).spaces hbefore
  rw [← hfollows'] at hspells
  simpa only [List.append_assoc] using hspells

theorem faces_unscoped (hproper : d.IsProper) :
    d.unscoped.map Token.face = (.word, "using") :: (d.operand.map Token.face ++ [(.mark, ";")]) := by
  obtain ⟨hkind, htext⟩ := isWord_eq_true.1 hproper.keyword
  obtain ⟨hmark, hsemicolon⟩ := isMark_eq_true.1 hproper.semicolon
  simp [unscoped, Token.face, hkind, htext, hmark, hsemicolon]

theorem all_dropWhile {gap : List Char} (h : gap.all isSpace = true) :
    (gap.dropWhile Text.isBlank).all isSpace = true :=
  List.all_eq_true.2 fun c hc => List.all_eq_true.1 h c ((List.dropWhile_sublist _).subset hc)

theorem all_trimRightChars {gap : List Char} (h : gap.all isSpace = true) :
    (Text.trimRightChars gap).all isSpace = true := by
  rw [Text.trimRightChars, List.all_reverse]
  exact all_dropWhile (by rwa [List.all_reverse])

include hproper hlaid

/-- A recognised directive that keeps its modifier is printed without its scope, else as it was. -/
theorem readsAs_of_not_losesModifier (h : d.IsRecognised) (hmodifier : ¬d.LosesModifier) :
    ReadsAs (importLine (usingText (Token.verbatim d.all))) (d.unscoped.map Token.face) := by
  obtain ⟨t, ts, hts, -⟩ := exists_operand hproper
  rw [usingText_of_not_losesModifier hproper hlaid h hmodifier, faces_unscoped hproper]
  apply readsAs_importLine
  rw [String.toList_ofList, hts]
  refine hlaid.spells (hts ▸ operand_suffix) ?_ (all_trimRightChars hlaid.gap) spells_semicolon
  exact all_dropWhile (hts ▸ hlaid.gapBefore keyword_suffix)

/-- A recognised directive that loses its modifier is printed with what it imports only. -/
theorem readsAs_of_losesModifier (h : d.IsRecognised) (hmodifier : d.LosesModifier) :
    ReadsAs (importLine (usingText (Token.verbatim d.all)))
      ((.word, "using") :: (d.imported.map Token.face ++ [(.mark, ";")])) := by
  obtain ⟨t, ts, hts, -⟩ := hproper.imported
  obtain ⟨u, hu⟩ := Option.isSome_iff_exists.1 hmodifier.1
  have hgap : (Source.gapBefore d.imported).all isSpace = true := by
    refine hlaid.gapBefore (t := u) ?_
    rw [← List.singleton_append, ← Option.toList_some, ← hu]
    exact operand_suffix
  rw [usingText_of_losesModifier hproper hlaid h hmodifier]
  apply readsAs_importLine
  rw [String.toList_ofList]
  rw [hts] at hgap ⊢
  exact hlaid.spells (hts ▸ imported_suffix) (all_dropWhile hgap) (all_trimRightChars hlaid.gap)
    spells_semicolon

/-- A directive that is not recognised is printed whole behind one more keyword. -/
theorem readsAs_of_not_isRecognised (h : ¬d.IsRecognised) :
    ReadsAs (importLine (usingText (Token.verbatim d.all)))
      ((.word, "using") :: (d.front.map Token.face ++ [(.mark, ";"), (.mark, ";")])) := by
  obtain ⟨t, ts, hts, -⟩ := hproper.exists_front
  have hend : Spells [';', ';'] [(.mark, ";"), (.mark, ";")] := by
    refine spells_semicolon.mark (m := ";") (by decide) ?_
    rintro c rest hc
    obtain ⟨rfl, -⟩ := List.cons.inj hc
    decide
  rw [usingText_of_not_isRecognised hproper hlaid h]
  apply readsAs_importLine
  have htext : (Token.verbatim d.all).toList ++ [';'] =
      [] ++ (Token.verbatim d.front).toList ++ leadChars d.semicolon.lead ++ [';', ';'] := by
    rw [toList_verbatim_all hproper]
    simp [textFrom]
  rw [htext, hts]
  exact hlaid.spells (hts ▸ List.suffix_rfl) rfl hlaid.gap hend

/-- The line for a directive has the tokens of the directive, apart from `global`, if and only if the
keyword is recognised and the modifier is not. -/
theorem readsAs_importLine_iff :
    ReadsAs (importLine (usingText (Token.verbatim d.all))) (d.unscoped.map Token.face) ↔
      d.IsRecognised ∧ ¬d.LosesModifier := by
  constructor
  · intro hread
    rw [faces_unscoped hproper] at hread
    by_cases hrecognised : d.IsRecognised
    · refine ⟨hrecognised, fun hmodifier => ?_⟩
      -- a token is missing
      have hlength := congrArg List.length
        (hread.unique (readsAs_of_losesModifier hproper hlaid hrecognised hmodifier))
      obtain ⟨t, ht⟩ := Option.isSome_iff_exists.1 hmodifier.1
      simp [operand, ht] at hlength
    · -- there is a semicolon too many
      have hlength := congrArg List.length
        (hread.unique (readsAs_of_not_isRecognised hproper hlaid hrecognised))
      simp [front] at hlength
      omega
  · rintro ⟨hrecognised, hmodifier⟩
    exact readsAs_of_not_losesModifier hproper hlaid hrecognised hmodifier

end UsingTokens

/-- The tokens of a text are taken from it, or from what follows its first line. -/
theorem exists_tokensFrom? {cs : List Char} {ts : List Token} (h : tokens? cs = some ts) :
    ∃ fuel lead cs', tokensFrom? fuel lead cs' = some ts := by
  unfold tokens? at h
  split at h
  · exact ⟨_, _, _, h⟩
  · exact ⟨_, _, _, h⟩

/-- A directive of a syntax tree stands in the text. -/
theorem UsingTokens.exists_laidOut_of_standIn {cs : List Char} {ts : List Token} (h : tokens? cs = some ts)
    {ds : List UsingTokens} (hds : StandIn ds ts) {d : UsingTokens} (hd : d ∈ ds) (hproper : d.IsProper)
    (hspaced : d.IsSpaced) : ∃ body after, d.LaidOut body after := by
  obtain ⟨fuel, lead, cs', htokens⟩ := exists_tokensFrom? h
  obtain ⟨rest, hrest⟩ := hds.exists_suffix hd
  exact UsingTokens.exists_laidOut hproper hspaced htokens hrest

end Source

/-! ## The directives of a source -/

/-- The imports of a source are what is left of its directives, in order. -/
theorem Declaration.usingsOf_eq (nodes : List Node) :
    usingsOf nodes = (usingNodes nodes).map fun node => usingText node.text := by
  rw [usingsOf, usingNodes, List.map_filterMap]
  congr 1
  funext node
  cases node <;> rfl

/-- The declaration of an element has the using directives of its source. -/
theorem ModelElement.usings_of_ofText {reader : SourceReader} {sourceFile : Option Path}
    {text : List Char} {elements : List ModelElement}
    (hread : ofText reader sourceFile text = .ok elements) {e : ModelElement} (he : e ∈ elements) :
    ∃ nodes, reader.treeOf? text = some nodes ∧ e.declaration.usings = usingsOf nodes := by
  obtain ⟨nodes, declarations, htree, hdeclarations, helements⟩ := ofText_eq_ok.1 hread
  obtain ⟨-, nameSpace, -, -, -, -, -, hmade⟩ := Declaration.ofTree_eq_ok hdeclarations
  obtain ⟨position, -, interfaceName, baseTypes, members, -, hof⟩ :=
    exists_of_forall₂ hmade.flip (declaration_mem_of_ofSource helements he)
  exact ⟨nodes, htree, hof.usings⟩

/-- What the extension file of an element says instead of the using directives of its source.  Wherever the
elements of a text come from, the file has after its header one line for each using directive of the text,
in their order, and then the line of its namespace.  If only white space stands between the tokens of a
directive, its line has the tokens of the directive apart from `global` if and only if the keyword `using`
is recognised in the text of the directive and `static` is not taken for a keyword as well.  Of the reader
it is asked that the directives of its trees are spelled by the tokens of the text. -/
theorem extension_usings_iff {reader : SourceReader} (hreader : reader.QuotesUsings)
    {sourceFile : Option Path} {text : List Char} {elements : List ModelElement}
    (hread : ModelElement.ofText reader sourceFile text = .ok elements) {t : Target} {e : ModelElement}
    (he : e ∈ elements) {files : List GeneratedFile} (h : generate t e = .ok files) :
    ∃ tokens nodes s fs, tokens? text = some tokens ∧ reader.treeOf? text = some nodes ∧
      ReadFrom nodes tokens ∧ ClassSet.ofElement t e = .ok s ∧ files = ElementFiles.toList fs ∧
      fs.Hold t.platform s ∧ ∀ f ∈ fs.extensions, ∃ lines rest,
        f.draft.filledLines = headerLine e.declaration.name ::
          (lines ++ s!"namespace {e.declaration.nameSpace}" :: rest) ∧
        ∀ ds, List.Forall₂ UsingTokens.Spell ds (usingNodes nodes) → StandIn ds tokens →
          List.Forall₂ (fun d line => d.IsSpaced →
            (ReadsAs line (d.unscoped.map Token.face) ↔ d.IsRecognised ∧ ¬d.LosesModifier)) ds lines := by
  obtain ⟨nodes, htree, husings⟩ := ModelElement.usings_of_ofText hread he
  obtain ⟨tokens, htokens, hquoted⟩ := hreader text nodes htree
  obtain ⟨s, hs, hfiles⟩ := bind_eq_ok.1 h
  obtain ⟨fs, rfl, hold⟩ := ElementFiles.exists_hold hfiles
  obtain ⟨names, properties, attached, base, hmade⟩ := ClassSet.exists_isMadeOf hs
  refine ⟨tokens, nodes, s, fs, htokens, htree, hquoted, hs, rfl, hold, ?_⟩
  intro f hf
  have hclass := hold.extensions
  rw [Option.mem_def.1 hf] at hclass
  rw [hmade.extensions] at hclass
  split at hclass
  · obtain ⟨hin⟩ := hclass
    refine ⟨_, _, by rw [hin.lines, hmade.sourceName]; rfl, ?_⟩
    intro ds hds hstand
    rw [husings, usingsOf_eq, List.map_map, List.forall₂_map_right_iff]
    have hmem := (List.forall₂_and_left (p := (· ∈ ds)) ds _).2 ⟨fun _ hd => hd, hds⟩
    refine hmem.imp ?_
    rintro d node ⟨hd, hspell⟩ hspaced
    obtain ⟨body, after, hlaid⟩ :=
      UsingTokens.exists_laidOut_of_standIn htokens hstand hd hspell.proper hspaced
    rw [Function.comp_apply, hspell.text]
    exact UsingTokens.readsAs_importLine_iff hspell.proper hlaid
  · cases hclass

/-! An interface behind some directives, and with a fluent property so that it has an extension file. -/

private def oneSpace : List Trivia := [⟨.blank, " "⟩]

private def fluentTokens : List Token :=
  let word := Token.mk [] .word
  let apart := Token.mk oneSpace .word
  let mark := Token.mk [] .mark
  [word "namespace", apart "M", mark "\x7b", word "interface", apart "IA", mark "\x7b", mark "[",
    word "Fluent", mark "]", word "int", apart "X", mark "\x7b", word "get", mark ";", mark "\x7d",
    mark "\x7d", mark "\x7d", ⟨[], .stop, ""⟩]

private def fluentText (directives : String) : List Char :=
  (directives ++ "namespace M\x7binterface IA\x7b[Fluent]int X\x7bget;\x7d\x7d\x7d").toList

private def fluentElement (usings : List String) : ModelElement :=
  ⟨⟨"IA", "M", usings, [⟨"X", "int", none, true, ["Fluent"]⟩], [], [], none⟩, none, []⟩

private def linqUsing : UsingTokens where
  scope := some ⟨[], .word, "global"⟩
  keyword := ⟨oneSpace, .word, "using"⟩
  modifier := none
  imported := [⟨oneSpace, .word, "System"⟩, ⟨oneSpace, .mark, "."⟩, ⟨oneSpace, .word, "Linq"⟩]
  semicolon := ⟨oneSpace, .mark, ";"⟩

private def aliasUsing : UsingTokens where
  scope := none
  keyword := ⟨[], .word, "using"⟩
  modifier := none
  imported := [⟨oneSpace, .word, "A"⟩, ⟨[], .mark, "="⟩, ⟨[], .word, "B"⟩]
  semicolon := ⟨[], .mark, ";"⟩

private theorem linqUsing_isProper : linqUsing.IsProper :=
  ⟨by decide, by decide, by decide, ⟨_, _, rfl, rfl, by decide⟩, by decide⟩

private theorem aliasUsing_isProper : aliasUsing.IsProper :=
  ⟨by decide, by decide, by decide, ⟨_, _, rfl, rfl, by decide⟩, by decide⟩

private theorem fluentText_reads {directives : String} {tokens : List Token} {usings : List String}
    (htokens : tokens? (fluentText directives) = some tokens)
    (helements : (treeOfTokens? tokens).map (ModelElement.ofTree "<source>" none) =
      some (.ok [fluentElement usings])) :
    ModelElement.ofText .builtIn none (fluentText directives) = .ok [fluentElement usings] :=
  ModelElement.ofText_of_tokens htokens rfl helements

theorem extension_usings_of_alias :
    ∃ files fs f first second rest,
      ModelElement.ofText .builtIn none (fluentText "global using System . Linq ;using A=B;") =
        .ok [fluentElement ["System . Linq", "A=B"]] ∧
      generate Target.wpfOfM (fluentElement ["System . Linq", "A=B"]) = .ok files ∧
      files = ElementFiles.toList fs ∧ fs.extensions = some f ∧
      f.draft.filledLines = headerLine "IA" :: first :: second :: "namespace M" :: rest ∧
      ReadsAs first (linqUsing.unscoped.map Token.face) ∧
      ReadsAs second (aliasUsing.unscoped.map Token.face) := by
  have htokens : tokens? (fluentText "global using System . Linq ;using A=B;") =
      some (linqUsing.all ++ (aliasUsing.all ++ fluentTokens)) := by
    decide +kernel
  have helements : (treeOfTokens? (linqUsing.all ++ (aliasUsing.all ++ fluentTokens))).map
      (ModelElement.ofTree "<source>" none) =
        some (.ok [fluentElement ["System . Linq", "A=B"]]) := by
    decide +kernel
  have hread := fluentText_reads htokens helements
  have hgenerate : (generate Target.wpfOfM (fluentElement ["System . Linq", "A=B"])).map
      List.length = .ok 2 := by
    decide +kernel
  obtain ⟨files, hfiles, -⟩ := map_eq_ok.1 hgenerate
  obtain ⟨tokens, nodes, s, fs, htokens', htree, -, hs, hlist, hold, hlines⟩ :=
    extension_usings_iff SourceReader.quotesUsings_builtIn hread (List.mem_singleton.2 rfl) hfiles
  obtain rfl := Option.some.inj (htokens.symm.trans htokens')
  rw [SourceReader.treeOf?_builtIn, htokens, Option.bind_some] at htree
  have husings : (treeOfTokens? (linqUsing.all ++ (aliasUsing.all ++ fluentTokens))).map usingNodes =
      some [⟨Token.verbatim linqUsing.all, true, false⟩, ⟨Token.verbatim aliasUsing.all, false, false⟩] := by
    decide +kernel
  rw [htree, Option.map_some, Option.some_inj] at husings
  have hclass : (ClassSet.ofElement Target.wpfOfM (fluentElement ["System . Linq", "A=B"])).map
      (fun s => s.extensions.isSome) = .ok true := by
    decide +kernel
  rw [hs] at hclass
  obtain ⟨f, hf⟩ := Option.isSome_iff_exists.1
    ((isSome_of_rel hold.extensions).trans (Except.ok.inj hclass))
  obtain ⟨lines, rest, hfilled, hdirectives⟩ := hlines f hf
  have hspell : List.Forall₂ UsingTokens.Spell [linqUsing, aliasUsing] (usingNodes nodes) := by
    rw [husings]
    exact .cons ⟨linqUsing_isProper, rfl, rfl, rfl⟩ (.cons ⟨aliasUsing_isProper, rfl, rfl, rfl⟩ .nil)
  have hboth := hdirectives [linqUsing, aliasUsing] hspell (.cons [] (.cons [] (.nil _)))
  obtain ⟨first, more, hfirst, hmore, rfl⟩ := List.forall₂_cons_left_iff.1 hboth
  obtain ⟨second, last, hsecond, hlast, rfl⟩ := List.forall₂_cons_left_iff.1 hmore
  obtain rfl := List.forall₂_nil_left_iff.1 hlast
  exact ⟨files, fs, f, first, second, rest, hread, hfiles, hlist, hf, hfilled,
    (hfirst (by decide)).2 (by decide), (hsecond (by decide)).2 (by decide)⟩

private def mathUsing : UsingTokens where
  scope := none
  keyword := ⟨[], .word, "using"⟩
  modifier := some ⟨oneSpace, .word, "static"⟩
  imported := [⟨oneSpace, .word, "System"⟩, ⟨[], .mark, "."⟩, ⟨[], .word, "Math"⟩]
  semicolon := ⟨[], .mark, ";"⟩

private theorem mathUsing_isProper : mathUsing.IsProper :=
  ⟨by decide, by decide, by decide, ⟨_, _, rfl, rfl, by decide⟩, by decide⟩

/-- A directive for the members of a class becomes one for a namespace. -/
theorem static_using_lost :
    tokens? (fluentText "using static System.Math;") = some (mathUsing.all ++ fluentTokens) ∧
      mathUsing.IsProper ∧ mathUsing.IsSpaced ∧
      ModelElement.ofText .builtIn none (fluentText "using static System.Math;") =
        .ok [fluentElement ["System.Math"]] ∧
      ∃ files f, generate Target.wpfOfM (fluentElement ["System.Math"]) = .ok files ∧
        files[1]? = some f ∧ f.className = "AExtensions" ∧
          "using System.Math;" ∈ f.draft.filledLines ∧
            ∀ line ∈ f.draft.filledLines, ¬ReadsAs line (mathUsing.unscoped.map Token.face) := by
  have htokens : tokens? (fluentText "using static System.Math;") =
      some (mathUsing.all ++ fluentTokens) := by
    decide +kernel
  have hfile : (generate Target.wpfOfM (fluentElement ["System.Math"])).map (fun files =>
      files[1]?.map fun f => (f.className, decide ("using System.Math;" ∈ f.draft.filledLines),
        f.draft.filledLines.all fun line => (tokens? line.toList).map (·.map Token.face) !=
          some (mathUsing.unscoped.map Token.face ++ [(.stop, "")]))) =
        .ok (some ("AExtensions", true, true)) := by
    decide +kernel
  obtain ⟨files, hfiles, hfile⟩ := map_eq_ok.1 hfile
  obtain ⟨f, hf, hlines⟩ := Option.map_eq_some_iff.1 hfile
  obtain ⟨hname, hlines⟩ := Prod.mk.inj hlines
  obtain ⟨hline, hall⟩ := Prod.mk.inj hlines
  refine ⟨htokens, mathUsing_isProper, by decide, fluentText_reads htokens (by decide +kernel), files, f,
    hfiles, hf, hname, of_decide_eq_true hline, ?_⟩
  rintro line hmem ⟨ts, hts, hspelled⟩
  -- none of the lines has the tokens of the directive
  have hother := List.all_eq_true.1 hall line hmem
  rw [hts, Option.map_some, hspelled.faces] at hother
  simp at hother

end PlatformClasses
