import PlatformClasses.ClassFile.Member

/-!
# Generated classes

The classes generated for one element of the model, as data: the class that implements the interface,
the class that implements its attached companion, and the class of extension methods.  Each has a
draft, which is the content of its file.
-/

namespace PlatformClasses

/-- The class that implements an interface. -/
structure PrimaryClass where
  name : String
  interfaceName : String
  baseClass : String
  nameSpace : String
  imports : List String
  /-- Whether the class carries a type converter. -/
  hasConverter : Bool
  descriptors : List Descriptor
  wrappers : List Wrapper
  assignments : List Assignment
  accessors : List Accessor
deriving Repr

/-- The class that implements an attached interface by the wrappers of a primary class. -/
structure AttachedClass where
  name : String
  interfaceName : String
  primaryName : String
  nameSpace : String
  imports : List String
  delegations : List Delegation

/-- The class of the extension methods of an interface. -/
structure ExtensionClass where
  name : String
  nameSpace : String
  imports : List String
  methods : List ExtensionMethod
deriving Repr

/-- The classes of one element of the model. -/
structure ClassSet where
  /-- The interface that the files name as their source. -/
  sourceName : String
  primary : PrimaryClass
  attached : Option AttachedClass
  extensions : Option ExtensionClass

namespace ClassFile

/-- The draft with the lines that say where the file comes from. -/
def draftHeader (sourceName : String) (d : Draft) : Draft :=
  (d.line
    (s!"// This file is generated from {sourceName}.cs. " ++
      "Update the source file to change its contents.")).blank

/-- The draft of import lines. -/
def draftImports (indentSize : Int) (imports : List String) : Draft :=
  (Draft.empty indentSize).addLines (imports.map fun name => s!"using {name};")

/-- The draft with sections added, a blank line between neighbours. -/
def draftSections (d : Draft) : List Draft → Draft
  | [] => d
  | [s] => d.splice s
  | s :: rest => draftSections (d.splice s).blank rest

/-- The draft of a file with one class: the class line is preceded by attributes and followed by
sections of members, of which the empty ones are left out. -/
def draftFile (indentSize : Int) (sourceName : String) (imports : List String)
    (nameSpace : String) (attributes : List String) (classLine : String) (sections : List Draft) :
    Draft :=
  let d := draftHeader sourceName (Draft.empty indentSize)
  let imported := draftImports indentSize imports
  let d := if imported.isEmpty then d else (d.splice imported).blank
  (d.line s!"namespace {nameSpace}").braced fun d =>
    ((d.addLines attributes).line classLine).braced fun d =>
      draftSections d (sections.filter fun s => !s.isEmpty)

end ClassFile

open ClassFile

/-- The draft of things one after the other. -/
def draftAll {α : Type} (indentSize : Int) (draft : α → Draft → Draft) (things : List α) : Draft :=
  things.foldl (fun d a => draft a d) (Draft.empty indentSize)

namespace PrimaryClass

/-- The attribute that names the type converter of a class. -/
def converterAttribute (className : String) : String :=
  s!"[System.ComponentModel.TypeConverter(typeof({className}TypeConverter))]"

/-- The sections of the class: descriptors, wrappers, constructor and accessors. -/
def sections (p : Platform) (indentSize : Int) (c : PrimaryClass) : List Draft :=
  [(Draft.empty indentSize).addLines (c.descriptors.map (Descriptor.line p c.name)),
   draftAll indentSize Wrapper.draft c.wrappers,
   if c.assignments.isEmpty then Draft.empty indentSize
   else Assignment.draftConstructor c.name c.assignments (Draft.empty indentSize),
   draftAll indentSize Accessor.draft c.accessors]

/-- The draft of the class. -/
def draft (p : Platform) (indentSize : Int) (c : PrimaryClass) : Draft :=
  draftFile indentSize c.interfaceName c.imports c.nameSpace
    (if c.hasConverter then [converterAttribute c.name] else [])
    s!"public class {c.name} : {c.baseClass}, {c.interfaceName}" (c.sections p indentSize)

end PrimaryClass

/-- The draft of an attached class. -/
def AttachedClass.draft (indentSize : Int) (sourceName : String) (c : AttachedClass) : Draft :=
  draftFile indentSize sourceName c.imports c.nameSpace []
    s!"public class {c.name} : {c.interfaceName}"
    [draftAll indentSize (Delegation.draft c.primaryName) c.delegations]

/-- The draft of a class of extension methods. -/
def ExtensionClass.draft (indentSize : Int) (sourceName : String) (c : ExtensionClass) : Draft :=
  draftFile indentSize sourceName c.imports c.nameSpace [] s!"public static class {c.name}"
    [draftAll indentSize ExtensionMethod.draft c.methods]

end PlatformClasses
