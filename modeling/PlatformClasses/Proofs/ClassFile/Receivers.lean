import PlatformClasses.Proofs.ClassFile.ExtensionFiles
import PlatformClasses.Proofs.ClassFile.PropertyBlocks
import PlatformClasses.Source.Phrase

/-!
# Receivers of extension methods

The parameters of an extension method are its receiver, which is named after the class, and the value.  A
receiver that would be a keyword is escaped, but only if the list of keywords has it, and the list does not
have all reserved words.  Nothing keeps a receiver apart from the value.  So the methods of an element have
legal receivers if and only if the name of its class, with its first character in lower case, is none of the
words that the list lacks, and is not that of the value (`legalReceivers_iff`).
-/

namespace PlatformClasses

/-! ## Variables and reserved words -/

namespace Target

/-- The reserved words of the language.  The names `nint` and `nuint` of built-in types are not reserved. -/
def reservedWords : List String :=
  Source.Phrase.reservedWords.filter fun word => word != "nint" && word != "nuint"

/-- The reserved words that are variables as they are. -/
def unescapedWords : List String := reservedWords.filter fun word => !keywords.contains word

example : reservedWords.length = 77 ∧ keywords ⊆ reservedWords ∧ unescapedWords.length = 22 := by
  decide +kernel

/-- An escaped word is not reserved. -/
theorem escaped_not_mem_reservedWords (word : String) : "@" ++ word ∉ reservedWords := by
  intro hmem
  have hplain : ∀ reserved ∈ reservedWords, reserved.toList.head? ≠ some '@' := by decide +kernel
  refine hplain _ hmem ?_
  rw [String.toList_append]
  rfl

theorem variableOfClass_mem_reservedWords_iff (className : String) :
    variableOfClass className ∈ reservedWords ↔ lowerFirst className ∈ unescapedWords := by
  by_cases hkeyword : lowerFirst className ∈ keywords
  · simp [variableOfClass, unescapedWords, hkeyword, escaped_not_mem_reservedWords]
  · simp [variableOfClass, unescapedWords, hkeyword]

theorem variableOfClass_eq_value_iff (className : String) :
    variableOfClass className = "value" ↔ lowerFirst className = "value" := by
  by_cases hkeyword : lowerFirst className ∈ keywords
  · have hother : "value" ∉ keywords := by decide
    have hescaped : "@" ++ lowerFirst className ≠ "value" := by
      intro hvalue
      have hhead := congrArg (fun word : String => word.toList.head?) hvalue
      simp [String.toList_append] at hhead
    have hplain : lowerFirst className ≠ "value" := fun hvalue => hother (hvalue ▸ hkeyword)
    simp [variableOfClass, hkeyword, hescaped, hplain]
  · simp [variableOfClass, hkeyword]

end Target

/-! ## Extension methods -/

namespace ExtensionMethod

/-- The receiver is not a reserved word, and is not called like the other parameter. -/
def HasLegalReceiver (m : ExtensionMethod) : Prop :=
  m.receiver ∉ Target.reservedWords ∧ m.receiver ≠ "value"

/-- The method sets the property of the interface, and the variable is its receiver. -/
def IsFor (t : Target) (interfaceName variableName : String) (p : Property) (m : ExtensionMethod) :
    Prop :=
  ∃ b, Backing.ofText t p.type = .ok b ∧ m = ⟨interfaceName, p.name, variableName, b.sourceText⟩

/-- If there are extension methods, the last file ends with a class that is made of them. -/
def AreIn (files : List GeneratedFile) (methods : List ExtensionMethod) : Prop :=
  methods ≠ [] → ∃ f, files.getLast? = some f ∧
    s!"public static class {f.className}" :: "\x7b" ::
      (methods.flatMap (·.block.lines) ++ ["\x7d", "\x7d"]) <:+ f.draft.filledLines

end ExtensionMethod

theorem BackedProperty.forall₂_extensionMethods {t : Target} {ps : List Property}
    {bs : List BackedProperty} (h : allOrFault (ofProperty t) ps = .ok bs)
    (interfaceName receiver : String) :
    List.Forall₂ (ExtensionMethod.IsFor t interfaceName receiver) (ps.filter (·.isFluent))
      (bs.filterMap (·.extensionMethod? interfaceName receiver)) := by
  replace h := forall₂_of_allOrFault h
  induction h with
  | nil => exact .nil
  | @cons p b ps bs hbacked _ ih =>
      obtain ⟨backing, hbacking, rfl⟩ := map_eq_ok.1 hbacked
      rw [List.filter_cons, List.filterMap_cons, extensionMethod?]
      cases p.isFluent with
      | false => exact ih
      | true => exact .cons ⟨backing, hbacking, rfl⟩ ih

/-- The extension methods of an element are in its files. -/
theorem ExtensionMethod.areIn_of_generate {t : Target} {e : ModelElement} {files : List GeneratedFile}
    (h : generate t e = .ok files) :
    ∃ className methods, t.className e.declaration.name = .ok className ∧
      List.Forall₂ (IsFor t e.declaration.name (Target.variableOfClass className))
        (e.declaration.properties.filter (·.isFluent)) methods ∧ AreIn files methods := by
  obtain ⟨names, bs, hnames, hbs, hends⟩ := ExtensionClass.suffix_of_generate h
  rw [ClassSet.variableName_of_namesOf hnames] at hends
  have hmethods := BackedProperty.forall₂_extensionMethods hbs e.declaration.name
    (Target.variableOfClass names.className)
  refine ⟨names.className, _, (ClassSet.className_of_namesOf hnames).1, hmethods, ?_⟩
  intro hany
  obtain ⟨m, hm⟩ := List.exists_mem_of_ne_nil _ hany
  obtain ⟨p, hp, -⟩ := exists_of_forall₂ hmethods.flip hm
  obtain ⟨f, hlast, hends⟩ := hends (List.any_eq_true.2 ⟨p, List.mem_filter.1 hp⟩)
  exact ⟨f, hlast, hends⟩

/-- Whatever is generated for an element, each of its fluent properties has an extension method whose
receiver is the variable of the class, and all of them have legal receivers if and only if there are none
or the class, with its first character in lower case, is called neither like one of the reserved words that
are not escaped nor like the value. -/
theorem legalReceivers_iff {t : Target} {e : ModelElement} {files : List GeneratedFile}
    (h : generate t e = .ok files) :
    ∃ className receiver methods, t.className e.declaration.name = .ok className ∧
      t.variableName e.declaration.name = .ok receiver ∧
        List.Forall₂ (ExtensionMethod.IsFor t e.declaration.name receiver)
          (e.declaration.properties.filter (·.isFluent)) methods ∧
          ExtensionMethod.AreIn files methods ∧
            ((∀ m ∈ methods, m.HasLegalReceiver) ↔
              (e.isFluent = true → Target.lowerFirst className ∉ Target.unescapedWords ∧
                Target.lowerFirst className ≠ "value")) := by
  obtain ⟨className, methods, hclass, hmethods, hin⟩ := ExtensionMethod.areIn_of_generate h
  refine ⟨className, Target.variableOfClass className, methods, hclass, ?_, hmethods, hin, ?_⟩
  · rw [Target.variableName, hclass]
    rfl
  · rw [← Target.variableOfClass_mem_reservedWords_iff,
      ← (Target.variableOfClass_eq_value_iff className).ne]
    constructor
    · intro hlegal hfluent
      obtain ⟨p, hp, hpFluent⟩ := List.any_eq_true.1 hfluent
      obtain ⟨m, hm, b, -, rfl⟩ := exists_of_forall₂ hmethods (List.mem_filter.2 ⟨hp, hpFluent⟩)
      exact hlegal _ hm
    · intro hlegal m hm
      obtain ⟨p, hp, b, -, rfl⟩ := exists_of_forall₂ hmethods.flip hm
      exact hlegal (List.any_eq_true.2 ⟨p, List.mem_filter.1 hp⟩)

/-! Interfaces with one fluent property, whose variables would be keywords, and one whose variable is called
like the value. -/

private def settableElement (name : String) : ModelElement :=
  ⟨⟨name, "M", [], [⟨"X", "int", none, true, []⟩], [], [], none⟩, none, []⟩

private def settingMethod (name receiver : String) : ExtensionMethod := ⟨name, "X", receiver, "int"⟩

theorem legalReceivers_of_event :
    ∃ files, generate Target.wpfOfM (settableElement "IEvent") = .ok files ∧
      ExtensionMethod.AreIn files [settingMethod "IEvent" "@event"] ∧
        (settingMethod "IEvent" "@event").HasLegalReceiver := by
  have hgenerate : (generate Target.wpfOfM (settableElement "IEvent")).map List.length = .ok 2 := by
    decide +kernel
  have hclass : Target.wpfOfM.className "IEvent" = .ok "Event" := by decide +kernel
  have hvariable : Target.wpfOfM.variableName "IEvent" = .ok "@event" := by decide +kernel
  have htype : (Backing.ofText Target.wpfOfM "int").map (·.sourceText) = .ok "int" := by
    decide +kernel
  obtain ⟨files, hfiles, -⟩ := map_eq_ok.1 hgenerate
  obtain ⟨className, receiver, methods, hclassName, hreceiver, hmethods, hin, hlegal⟩ :=
    legalReceivers_iff hfiles
  obtain rfl : className = "Event" := Except.ok.inj (hclassName.symm.trans hclass)
  obtain rfl : receiver = "@event" := Except.ok.inj (hreceiver.symm.trans hvariable)
  obtain ⟨m, rest, ⟨b, hb, rfl⟩, hrest, rfl⟩ := List.forall₂_cons_left_iff.1 hmethods
  obtain rfl := List.forall₂_nil_left_iff.1 hrest
  obtain ⟨b', hb', hint⟩ := map_eq_ok.1 htype
  obtain rfl : b' = b := Except.ok.inj (hb'.symm.trans hb)
  rw [hint] at hin hlegal
  refine ⟨files, hfiles, hin, hlegal.2 (fun _ => ?_) _ List.mem_cons_self⟩
  decide +kernel

/-- The words `for` and `value` are receivers as they are. -/
theorem illegal_receivers :
    (∃ own f, generate Target.wpfOfM (settableElement "IFor") = .ok [own, f] ∧
      (settingMethod "IFor" "for").block.lines <:+: f.draft.filledLines ∧
        ¬(settingMethod "IFor" "for").HasLegalReceiver) ∧
      ∃ own f, generate Target.wpfOfM (settableElement "IValue") = .ok [own, f] ∧
        (settingMethod "IValue" "value").block.lines <:+: f.draft.filledLines ∧
          ¬(settingMethod "IValue" "value").HasLegalReceiver := by
  have hblock : ∀ name ∈ [("IFor", "for"), ("IValue", "value")],
      (generate Target.wpfOfM (settableElement name.1)).map (fun files => files.map fun f =>
        decide ((settingMethod name.1 name.2).block.lines <:+: f.draft.filledLines)) =
          .ok [false, true] := by
    decide +kernel
  have hfiles : ∀ name ∈ [("IFor", "for"), ("IValue", "value")],
      ∃ own f, generate Target.wpfOfM (settableElement name.1) = .ok [own, f] ∧
        (settingMethod name.1 name.2).block.lines <:+: f.draft.filledLines := by
    intro name hname
    obtain ⟨files, hfiles, hlines⟩ := map_eq_ok.1 (hblock name hname)
    obtain ⟨own, rest, rfl, -, hrest⟩ := List.map_eq_cons_iff.1 hlines
    obtain ⟨f, rest, rfl, hf, hnone⟩ := List.map_eq_cons_iff.1 hrest
    obtain rfl := List.map_eq_nil_iff.1 hnone
    exact ⟨own, f, hfiles, of_decide_eq_true hf⟩
  have hfor : "for" ∈ Target.reservedWords := by decide +kernel
  obtain ⟨own, f, hgenerate, hlines⟩ := hfiles ("IFor", "for") (by simp)
  obtain ⟨own', f', hgenerate', hlines'⟩ := hfiles ("IValue", "value") (by simp)
  exact ⟨⟨own, f, hgenerate, hlines, fun hlegal => hlegal.1 hfor⟩, own', f', hgenerate', hlines',
    fun hlegal => hlegal.2 rfl⟩

end PlatformClasses
