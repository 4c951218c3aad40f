import PlatformClasses.Fault
import PlatformClasses.Text.Case

/-!
# Platforms

What is particular to each platform that classes can be generated for: the namespace and the project
directory of its classes, the classes they derive from, the calls that register properties, and the
value types that the platform wraps.
-/

namespace PlatformClasses

/-- The facts about a platform. -/
structure Platform where
  name : String
  /-- The namespace that the root namespace of the model is mapped to. -/
  destinationRoot : String
  projectDirectory : String
  /-- The class of the objects that describe registered properties. -/
  descriptorClass : String
  defaultBaseClass : String
  /-- The base class of the root element. -/
  rootBaseClass : String
  /-- The generic base class of collections. -/
  collectionBaseClass : String
  /-- The call that registers a property. -/
  propertyFactory : String
  /-- The call that registers an attached property. -/
  attachedPropertyFactory : String
  /-- The namespaces that every class imports. -/
  requiredImports : List String
  /-- The value types that are stored in a wrapper of the platform's own. -/
  wrappedTypes : List String
  /-- What is appended to the name of a wrapped type to name its wrapper. -/
  wrapperEnding : String
  /-- The classes that carry a type converter. -/
  converterClasses : List String
deriving Repr, DecidableEq

namespace Platform

/-- Windows Presentation Foundation. -/
def wpf : Platform where
  name := "wpf"
  destinationRoot := "Microsoft.StandardUI.Wpf"
  projectDirectory := "StandardUI.WPF"
  descriptorClass := "System.Windows.DependencyProperty"
  defaultBaseClass := "StandardUIDependencyObject"
  rootBaseClass := "StandardUIFrameworkElement"
  collectionBaseClass := "StandardUICollection"
  propertyFactory := "PropertyUtils.Create"
  attachedPropertyFactory := "PropertyUtils.CreateAttached"
  requiredImports := ["System.Windows"]
  wrappedTypes := ["Point", "Size", "Color", "Rect"]
  wrapperEnding := "Wpf"
  converterClasses := ["Geometry", "Brush"]

/-- The Windows UI library. -/
def winui : Platform where
  name := "winui"
  destinationRoot := "Microsoft.StandardUI.WinUI"
  projectDirectory := "StandardUI.WinUI"
  descriptorClass := "Microsoft.UI.Xaml.DependencyProperty"
  defaultBaseClass := "StandardUIDependencyObject"
  rootBaseClass := "StandardUIFrameworkElement"
  collectionBaseClass := "StandardUICollection"
  propertyFactory := "PropertyUtils.Create"
  attachedPropertyFactory := "PropertyUtils.CreateAttached"
  requiredImports := ["Microsoft.UI.Xaml"]
  wrappedTypes := ["Point", "Size", "Color", "Rect"]
  wrapperEnding := "WinUI"
  converterClasses := ["Geometry", "Brush"]

/-- The multi-platform app UI. -/
def maui : Platform where
  name := "maui"
  destinationRoot := "Microsoft.StandardUI.Maui"
  projectDirectory := "StandardUI.Maui"
  descriptorClass := "Microsoft.Maui.Controls.BindableProperty"
  defaultBaseClass := "StandardUIBindableObject"
  rootBaseClass := "StandardUIView"
  collectionBaseClass := "StandardUICollection"
  propertyFactory := "PropertyUtils.Create"
  attachedPropertyFactory := "PropertyUtils.CreateAttached"
  requiredImports := ["Microsoft.Maui.Controls"]
  wrappedTypes := ["Point", "Size", "Rect"]
  wrapperEnding := "Maui"
  converterClasses := []

/-- Every platform, by increasing name. -/
def all : List Platform := [maui, winui, wpf]

/-- The names of the platforms, in increasing order. -/
def names : List String := all.map (·.name)

/-- The platform of a name, in any case. -/
def ofName (name : String) : Except Fault Platform :=
  match all.find? fun p => p.name == Text.lower name with
  | some p => .ok p
  | none => .error (.unknownPlatform name names)

/-- The wrapper that the platform has for a type. -/
def wrapper? (p : Platform) (typeName : String) : Option String :=
  if p.wrappedTypes.contains typeName then some (typeName ++ p.wrapperEnding) else none

/-- Whether a class carries a type converter. -/
def hasConverter (p : Platform) (className : String) : Bool :=
  p.converterClasses.contains className

/-- The namespace of the type converters. -/
def convertersNamespace (p : Platform) : String := p.destinationRoot ++ ".Converters"

end Platform

end PlatformClasses
