import PlatformClasses.Proofs.ClassFile.Contents
import PlatformClasses.Proofs.ClassFile.PlatformFiles
import PlatformClasses.Proofs.Declaration.Grouping
import PlatformClasses.Proofs.Declaration.Nesting

/-!
# What is generated for properties

A property of an interface gives its class a property, the explicit implementation of the declared one if
the platform stores another type, and an extension method if an attribute asks for one.  `IsOutputOf` says
what these blocks of lines are, and `AreIn` where they stand in the generated files.

The accessors that a property declares are not read, so an explicit implementation always has a getter and
a setter, and an extension method always sets.  Hence what is generated has the accessors of the
declaration if and only if a property that needs an explicit implementation declares both, and one that
has an extension method can be set (`declared_accessors_iff`).
-/

namespace PlatformClasses

open Source

/-! ## What is generated for a property -/

/-- A block has an accessor of some kind, by some expression. -/
def CodeBlock.Has (b : CodeBlock) (kind : String) : Prop :=
  ∃ expression, kind ++ " => " ++ expression ++ ";" ∈ b.body

/-- What is generated for a property of an interface. -/
structure PropertyOutput where
  /-- The property of the class. -/
  own : CodeBlock
  /-- The explicit implementation of the declared property. -/
  explicit : Option CodeBlock
  /-- The extension method that sets the property. -/
  fluent : Option CodeBlock
deriving Repr, DecidableEq

/-- The platform stores a property as another type than the declared one. -/
def Converts (t : Target) (node : PropertyNode) : Prop :=
  ∃ b, Backing.ofText t node.type = .ok b ∧ b.differs = true

namespace PropertyOutput

/-- The lines in the class. -/
def accessorLines (o : PropertyOutput) : List String :=
  o.own.lines ++ o.explicit.toList.flatMap CodeBlock.lines

/-- The lines in the class of extension methods. -/
def fluentLines (o : PropertyOutput) : List String := o.fluent.toList.flatMap CodeBlock.lines

/-- The class, which is in the first file, ends with what is generated for the properties, and the class
of extension methods, which is in the last one, is made of their methods. -/
structure AreIn (files : List GeneratedFile) (outputs : List PropertyOutput) : Prop where
  accessors : ∃ f, files.head? = some f ∧
    outputs.flatMap accessorLines ++ ["\x7d", "\x7d"] <:+ f.draft.filledLines
  fluent : (∃ o ∈ outputs, o.fluent.isSome) → ∃ f, files.getLast? = some f ∧
    s!"public static class {f.className}" :: "\x7b" ::
      (outputs.flatMap fluentLines ++ ["\x7d", "\x7d"]) <:+ f.draft.filledLines

/-- The blocks are those of a property of an interface.  Those that implement the declared property have
both accessors, and the method of an extension sets it. -/
structure IsOutputOf (t : Target) (interfaceName : String) (node : PropertyNode)
    (o : PropertyOutput) : Prop where
  own : ∃ b, Backing.ofText t node.type = .ok b ∧ o.own.head = s!"public {b.text} {node.name}"
  explicit_iff : o.explicit.isSome ↔ Converts t node
  explicit : ∀ c ∈ o.explicit, (∃ b, Backing.ofText t node.type = .ok b ∧
    c.head = s!"{b.sourceText} {interfaceName}.{node.name}") ∧ c.Has "get" ∧ c.Has "set"
  fluent_iff : o.fluent.isSome ↔ (Declaration.propertyOf node).isFluent = true
  fluent : ∀ c ∈ o.fluent, ∃ receiver type : String,
    c.head = s!"public static {interfaceName} {node.name}(this {interfaceName} {receiver}, " ++
      s!"{type} value)" ∧ s!"{receiver}.{node.name} = value;" ∈ c.body

/-- What is generated for a property has the accessors that the property declares, and sets it only if it
can be set. -/
structure FollowsAccessors (node : PropertyNode) (o : PropertyOutput) : Prop where
  got : ∀ c ∈ o.explicit, (c.Has "get" ↔ "get" ∈ node.accessors)
  set : ∀ c ∈ o.explicit, (c.Has "set" ↔ "set" ∈ node.accessors)
  fluent : o.fluent.isSome → "set" ∈ node.accessors

/-- Since explicit implementations have both accessors, so must the property that needs one. -/
theorem IsOutputOf.followsAccessors_iff {t : Target} {interfaceName : String} {node : PropertyNode}
    {o : PropertyOutput} (h : IsOutputOf t interfaceName node o) :
    FollowsAccessors node o ↔
      (Converts t node → "get" ∈ node.accessors ∧ "set" ∈ node.accessors) ∧
        ((Declaration.propertyOf node).isFluent = true → "set" ∈ node.accessors) := by
  rw [← h.explicit_iff, ← h.fluent_iff]
  constructor
  · intro hfollows
    refine ⟨?_, hfollows.fluent⟩
    intro hsome
    obtain ⟨c, hc⟩ := Option.isSome_iff_exists.1 hsome
    obtain ⟨-, hget, hset⟩ := h.explicit c hc
    exact ⟨(hfollows.got c hc).1 hget, (hfollows.set c hc).1 hset⟩
  · rintro ⟨hboth, hfluent⟩
    have hdeclared : ∀ c ∈ o.explicit, "get" ∈ node.accessors ∧ "set" ∈ node.accessors :=
      fun c hc => hboth (Option.isSome_iff_exists.2 ⟨c, hc⟩)
    constructor
    · intro c hc
      exact iff_of_true (h.explicit c hc).2.1 (hdeclared c hc).1
    · intro c hc
      exact iff_of_true (h.explicit c hc).2.2 (hdeclared c hc).2
    · exact hfluent

end PropertyOutput

/-! ## From properties to files -/

/-- What is generated for a property with its backing type. -/
def BackedProperty.output (interfaceName receiver : String) (b : BackedProperty) : PropertyOutput where
  own := (Accessor.ofProperty interfaceName b.backing b.property.name).ownBlock
  explicit := (Accessor.ofProperty interfaceName b.backing b.property.name).conversion.map
    (Conversion.block b.property.name)
  fluent := (b.extensionMethod? interfaceName receiver).map ExtensionMethod.block

theorem Conversion.has_block (property : String) (c : Conversion) :
    (c.block property).Has "get" ∧ (c.block property).Has "set" := by
  constructor
  · exact ⟨c.got, List.mem_cons_self⟩
  · refine ⟨s!"{property} = {c.set}", List.mem_cons_of_mem _ (List.mem_singleton.2 ?_)⟩
    rw [← String.toList_inj]
    simp [ToString.toString]

/-- The blocks of a property are those that its declaration asks for. -/
theorem BackedProperty.isOutputOf {t : Target} {node : PropertyNode} {b : BackedProperty}
    (h : ofProperty t (Declaration.propertyOf node) = .ok b) (interfaceName receiver : String) :
    PropertyOutput.IsOutputOf t interfaceName node (b.output interfaceName receiver) := by
  obtain ⟨backing, hbacking, rfl⟩ := map_eq_ok.1 h
  have hbacking : Backing.ofText t node.type = .ok backing := hbacking
  have hconverts : Converts t node ↔ backing.differs = true := by
    simp [Converts, hbacking]
  constructor
  · exact ⟨backing, hbacking, rfl⟩
  · rw [hconverts]
    cases hdiffers : backing.differs <;> simp [output, Accessor.ofProperty, hdiffers]
  · intro c hc
    obtain ⟨conversion, hconversion, rfl⟩ := Option.map_eq_some_iff.1 hc
    refine ⟨⟨backing, hbacking, ?_⟩, conversion.has_block node.name⟩
    unfold Accessor.ofProperty at hconversion
    split at hconversion
    · obtain rfl := Option.some.inj hconversion
      rfl
    · simp at hconversion
  · cases hfluent : (Declaration.propertyOf node).isFluent <;>
      simp [output, extensionMethod?, hfluent]
  · intro c hc
    obtain ⟨m, hm, rfl⟩ := Option.map_eq_some_iff.1 hc
    unfold extensionMethod? at hm
    split at hm
    · obtain rfl := Option.some.inj hm
      exact ⟨receiver, backing.sourceText, rfl, List.mem_cons_self⟩
    · simp at hm

theorem PropertyOutput.flatMap_accessorLines (interfaceName receiver : String)
    (bs : List BackedProperty) :
    (bs.map (·.output interfaceName receiver)).flatMap accessorLines =
      (bs.map fun b => Accessor.ofProperty interfaceName b.backing b.property.name).flatMap
        Accessor.lines := by
  rw [List.flatMap_map, List.flatMap_map]
  rfl

theorem PropertyOutput.flatMap_fluentLines (interfaceName receiver : String)
    (bs : List BackedProperty) :
    (bs.map (·.output interfaceName receiver)).flatMap fluentLines =
      (bs.filterMap (·.extensionMethod? interfaceName receiver)).flatMap (·.block.lines) := by
  rw [List.flatMap_map]
  induction bs with
  | nil => rfl
  | cons b rest ih =>
      rw [List.flatMap_cons, ih, List.filterMap_cons]
      cases h : b.extensionMethod? interfaceName receiver <;> simp [fluentLines, BackedProperty.output, h]

/-- A class ends with its accessors. -/
theorem PrimaryClass.suffix_accessorLines (p : Platform) (c : PrimaryClass) :
    c.accessors.flatMap Accessor.lines ++ ["\x7d", "\x7d"] <:+ c.lines p := by
  refine List.IsSuffix.trans ?_ (c.suffix_memberLines p)
  simp only [memberLines, ← List.append_assoc]
  rw [List.append_assoc]
  exact List.suffix_append _ _

/-- The last file of an element with fluent properties ends with their extension methods. -/
theorem ElementFiles.Hold.exists_last {t : Target} {e : ModelElement} {s : ClassSet}
    {names : ClassSet.Names} {properties : List BackedProperty} {attached : List BackedAttached}
    {base : String} {fs : ElementFiles} (hold : fs.Hold t.platform s)
    (hmade : ClassSet.IsMadeOf t e s names properties attached base) (hfluent : e.isFluent = true) :
    ∃ f, fs.toList.getLast? = some f ∧ s!"public static class {f.className}" :: "\x7b" ::
      ((properties.filterMap (·.extensionMethod? e.declaration.name names.variableName)).flatMap
        (·.block.lines) ++ ["\x7d", "\x7d"]) <:+ f.draft.filledLines := by
  have hextensions := hmade.extensions
  rw [if_pos hfluent] at hextensions
  obtain ⟨f, hfile, hname, hlines⟩ := exists_of_rel hold.extensions hextensions
  refine ⟨f, ?_, ?_⟩
  · rw [toList, hfile, ← List.cons_append]
    exact List.getLast?_concat
  · rw [hlines, hname]
    exact ClassFile.suffix_fileLines ..

theorem ExtensionClass.suffix_of_generate {t : Target} {e : ModelElement}
    {files : List GeneratedFile} (h : generate t e = .ok files) :
    ∃ names bs, ClassSet.namesOf t e = .ok names ∧
      allOrFault (BackedProperty.ofProperty t) e.declaration.properties = .ok bs ∧
        (e.isFluent = true → ∃ f, files.getLast? = some f ∧
          s!"public static class {f.className}" :: "\x7b" ::
            ((bs.filterMap (·.extensionMethod? e.declaration.name names.variableName)).flatMap
              (·.block.lines) ++ ["\x7d", "\x7d"]) <:+ f.draft.filledLines) := by
  obtain ⟨fs, s, names, bs, attached, base, rfl, hold, hmade⟩ := ElementFiles.exists_of_generate h
  exact ⟨names, bs, hmade.named, hmade.backed, hold.exists_last hmade⟩

/-- The blocks of an element's properties are in its files. -/
theorem PropertyOutput.areIn_of_generate {t : Target} {e : ModelElement} {files : List GeneratedFile}
    (h : generate t e = .ok files) :
    ∃ receiver bs, allOrFault (BackedProperty.ofProperty t) e.declaration.properties = .ok bs ∧
      AreIn files (bs.map (·.output e.declaration.name receiver)) := by
  obtain ⟨fs, s, names, bs, attached, base, rfl, hold, hmade⟩ := ElementFiles.exists_of_generate h
  refine ⟨names.variableName, bs, hmade.backed, ?_, ?_⟩
  · refine ⟨fs.primary, rfl, ?_⟩
    have haccessors : s.primary.accessors =
        bs.map fun b => Accessor.ofProperty e.declaration.name b.backing b.property.name := by
      rw [hmade.primary]
      rfl
    rw [hold.primary.lines, flatMap_accessorLines, ← haccessors]
    exact s.primary.suffix_accessorLines t.platform
  · intro hany
    have hfluent : e.isFluent = true := by
      obtain ⟨o, ho, hsome⟩ := hany
      obtain ⟨b, hb, rfl⟩ := List.mem_map.1 ho
      have hproperty : b.property ∈ e.declaration.properties := by
        rw [← ClassSet.property_of_ofProperty hmade.backed]
        exact List.mem_map_of_mem hb
      refine List.any_eq_true.2 ⟨b.property, hproperty, ?_⟩
      by_contra hnot
      simp [BackedProperty.output, BackedProperty.extensionMethod?, hnot] at hsome
    rw [flatMap_fluentLines]
    exact hold.exists_last hmade hfluent

/-! ## From sources to properties -/

/-- The properties among the members of an interface, as nodes. -/
def propertyNodesOf (members : List Node) : List PropertyNode :=
  members.filterMap fun
    | .property node => some node
    | _ => none

theorem propertiesOf_eq (members : List Node) :
    Declaration.propertiesOf members = (propertyNodesOf members).map Declaration.propertyOf := by
  unfold Declaration.propertiesOf propertyNodesOf
  rw [List.map_filterMap]
  congr 1
  funext node
  cases node <;> rfl

/-- The search finds the interface at a position. -/
theorem exists_found_of_nodeAt? {nodes : List Node} {position : Position} {interfaceName : String}
    {baseTypes : List String} {members : List Node}
    (h : nodeAt? nodes position = some (.interfaceBlock interfaceName baseTypes members))
    (around : List String) :
    ∃ i ∈ Declaration.interfacesOfAll around nodes, i.members = members := by
  have hposition : position ∈ interfacePositions nodes := mem_interfacePositions_iff.2 ⟨_, _, _, h⟩
  obtain ⟨i, hi, hfound⟩ := exists_of_forall₂ (forall₂_interfaces around nodes) hposition
  have hsame := hfound.nodeAt?.symm.trans h
  refine ⟨i, hi, ?_⟩
  injection hsame with hblock
  injection hblock

/-- What an element declares stands in one of the interfaces of its text. -/
theorem ModelElement.exists_interface {reader : SourceReader} {sourceFile : Option Path}
    {text : List Char} {elements : List ModelElement}
    (hread : ofText reader sourceFile text = .ok elements) {e : ModelElement} (he : e ∈ elements) :
    ∃ nodes position interfaceName baseTypes members, reader.treeOf? text = some nodes ∧
      nodeAt? nodes position = some (.interfaceBlock interfaceName baseTypes members) ∧
        e.declaration.name = interfaceName ∧
          e.declaration.properties = (propertyNodesOf members).map Declaration.propertyOf := by
  obtain ⟨nodes, declarations, htree, hdeclarations, helements⟩ := ofText_eq_ok.1 hread
  obtain ⟨-, nameSpace, -, -, -, -, -, hmade⟩ := Declaration.ofTree_eq_ok hdeclarations
  obtain ⟨position, -, interfaceName, baseTypes, members, hnode, hof⟩ :=
    exists_of_forall₂ hmade.flip (declaration_mem_of_ofSource helements he)
  refine ⟨nodes, position, interfaceName, baseTypes, members, htree, hnode, hof.name, ?_⟩
  rw [hof.properties, propertiesOf_eq]

/-- What is generated for the properties of an interface.  Wherever the elements of a text come from, the
properties of an element are those of an interface in its tree, and the files have, for each of them in
order, the property of the class, the explicit implementation of the declared property if the platform
stores another type, and the extension method if the property is fluent.  These have the accessors that
the property declares if and only if a property whose type is converted declares both a getter and a
setter, and a fluent one declares a setter.  This holds for every reader of sources. -/
theorem declared_accessors_iff {reader : SourceReader} {sourceFile : Option Path} {text : List Char}
    {elements : List ModelElement} (hread : ModelElement.ofText reader sourceFile text = .ok elements)
    {t : Target} {e : ModelElement} (he : e ∈ elements) {files : List GeneratedFile}
    (h : generate t e = .ok files) :
    ∃ nodes position interfaceName baseTypes members outputs,
      reader.treeOf? text = some nodes ∧
      nodeAt? nodes position = some (.interfaceBlock interfaceName baseTypes members) ∧
      e.declaration.name = interfaceName ∧
      e.declaration.properties = (propertyNodesOf members).map Declaration.propertyOf ∧
      PropertyOutput.AreIn files outputs ∧
      List.Forall₂ (fun node o => PropertyOutput.IsOutputOf t interfaceName node o ∧
        (PropertyOutput.FollowsAccessors node o ↔
          (Converts t node → "get" ∈ node.accessors ∧ "set" ∈ node.accessors) ∧
            ((Declaration.propertyOf node).isFluent = true → "set" ∈ node.accessors)))
        (propertyNodesOf members) outputs := by
  obtain ⟨nodes, position, interfaceName, baseTypes, members, htree, hnode, hname, hproperties⟩ :=
    ModelElement.exists_interface hread he
  obtain ⟨receiver, bs, hbs, hin⟩ := PropertyOutput.areIn_of_generate h
  refine ⟨nodes, position, interfaceName, baseTypes, members, _, htree, hnode, hname, hproperties, hin,
    ?_⟩
  have hbacked := forall₂_of_allOrFault hbs
  rw [hproperties, List.forall₂_map_left_iff] at hbacked
  rw [List.forall₂_map_right_iff, hname]
  refine hbacked.imp ?_
  intro node b hb
  have houtput := b.isOutputOf hb interfaceName receiver
  exact ⟨houtput, houtput.followsAccessors_iff⟩

/-! An interface with a brush, which a platform stores as its own type. -/

private def brushText (accessors : List String) : String :=
  "namespace M\x7binterface IA\x7bIBrush X\x7b" ++ String.join (accessors.map (· ++ ";")) ++
    "\x7d\x7d\x7d"

private def brushTokens (accessors : List String) : List Token :=
  let word := Token.mk [] .word
  let apart := Token.mk [⟨.blank, " "⟩] .word
  let mark := Token.mk [] .mark
  [word "namespace", apart "M", mark "\x7b", word "interface", apart "IA", mark "\x7b",
      word "IBrush", apart "X", mark "\x7b"] ++
    accessors.flatMap (fun accessor => [word accessor, mark ";"]) ++
      [mark "\x7d", mark "\x7d", mark "\x7d", ⟨[], .stop, ""⟩]

private def brushProperty (accessors : List String) : PropertyNode := ⟨"X", "IBrush", [], accessors⟩

private def brushDeclared : ModelElement :=
  ⟨⟨"IA", "M", [], [⟨"X", "IBrush", none, false, []⟩], [], [], none⟩, none, []⟩

private theorem brush_interfaces : ∀ accessors ∈ [["get"], ["get", "set"]],
    tokens? (brushText accessors).toList = some (brushTokens accessors) ∧
      (treeOfTokens? (brushTokens accessors)).map (fun nodes =>
        (Declaration.interfacesOfAll [Node.sourceKindName] nodes).map (propertyNodesOf ·.members)) =
          some [[brushProperty accessors]] ∧
      (treeOfTokens? (brushTokens accessors)).map (ModelElement.ofTree "<source>" none) =
        some (.ok [brushDeclared]) := by
  decide +kernel

theorem declared_accessors_of_brush :
    let node := brushProperty ["get", "set"]
    ModelElement.ofText .builtIn none (brushText ["get", "set"]).toList = .ok [brushDeclared] ∧
      ∃ files o, generate Target.wpfOfM brushDeclared = .ok files ∧ PropertyOutput.AreIn files [o] ∧
        PropertyOutput.IsOutputOf Target.wpfOfM "IA" node o ∧ o.explicit.isSome ∧
          PropertyOutput.FollowsAccessors node o := by
  intro node
  obtain ⟨htokens, hproperties, helements⟩ := brush_interfaces ["get", "set"] (by simp)
  have hread : ModelElement.ofText .builtIn none (brushText ["get", "set"]).toList = .ok [brushDeclared] :=
    ModelElement.ofText_of_tokens htokens rfl helements
  have hgenerate : (generate Target.wpfOfM brushDeclared).map List.length = .ok 1 := by decide +kernel
  obtain ⟨files, hfiles, -⟩ := map_eq_ok.1 hgenerate
  obtain ⟨nodes, position, interfaceName, baseTypes, members, outputs, htree, hnode, rfl, -, hin,
      houtputs⟩ :=
    declared_accessors_iff hread (List.mem_singleton.2 rfl) hfiles
  have hmembers : propertyNodesOf members = [node] := by
    rw [SourceReader.treeOf?_builtIn, htokens, Option.bind_some] at htree
    rw [htree, Option.map_some, Option.some.injEq] at hproperties
    obtain ⟨i, hi, rfl⟩ := exists_found_of_nodeAt? hnode [Node.sourceKindName]
    have hmem := List.mem_map_of_mem (f := fun i => propertyNodesOf i.members) hi
    rw [hproperties] at hmem
    exact List.mem_singleton.1 hmem
  rw [hmembers] at houtputs
  obtain ⟨o, rest, ⟨houtput, hfollows⟩, hrest, rfl⟩ := List.forall₂_cons_left_iff.1 houtputs
  obtain rfl := List.forall₂_nil_left_iff.1 hrest
  have hconverts : Converts Target.wpfOfM node := by
    have hdiffers : (Backing.ofText Target.wpfOfM node.type).map (·.differs) = .ok true := by
      decide +kernel
    exact map_eq_ok.1 hdiffers
  refine ⟨hread, files, o, hfiles, hin, houtput, houtput.explicit_iff.2 hconverts, hfollows.2 ?_⟩
  exact ⟨fun _ => by decide, fun _ => by decide⟩

/-- A brush that can only be read is implemented with a setter. -/
theorem explicit_setter_of_readOnly_brush :
    ModelElement.ofText .builtIn none (brushText ["get"]).toList = .ok [brushDeclared] ∧
      (SourceReader.builtIn.treeOf? (brushText ["get"]).toList).map (fun nodes =>
        (Declaration.interfacesOfAll [Node.sourceKindName] nodes).map (propertyNodesOf ·.members)) =
          some [[brushProperty ["get"]]] ∧
      ∃ f, generate Target.wpfOfM brushDeclared = .ok [f] ∧
        ["IBrush IA.X", "\x7b", "get => X;", "set => X = (Brush) value;", "\x7d"] <:+:
          f.draft.filledLines := by
  obtain ⟨htokens, hproperties, helements⟩ := brush_interfaces ["get"] (by simp)
  refine ⟨ModelElement.ofText_of_tokens htokens rfl helements, ?_, ?_⟩
  · rw [SourceReader.treeOf?_builtIn, htokens]
    exact hproperties
  · have hlines : (generate Target.wpfOfM brushDeclared).map
        (fun files => files.map fun f => decide (["IBrush IA.X", "\x7b", "get => X;",
          "set => X = (Brush) value;", "\x7d"] <:+: f.draft.filledLines)) = .ok [true] := by
      decide +kernel
    obtain ⟨files, hfiles, hlines⟩ := map_eq_ok.1 hlines
    obtain ⟨f, rest, rfl, hf, hrest⟩ := List.map_eq_cons_iff.1 hlines
    obtain rfl := List.map_eq_nil_iff.1 hrest
    exact ⟨f, hfiles, of_decide_eq_true hf⟩

end PlatformClasses
