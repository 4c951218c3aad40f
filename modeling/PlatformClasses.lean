import PlatformClasses.Backing
import PlatformClasses.ClassFile.Basic
import PlatformClasses.ClassFile.Generation
import PlatformClasses.ClassFile.Member
import PlatformClasses.Command
import PlatformClasses.CommandLine
import PlatformClasses.Config.Basic
import PlatformClasses.Config.Collections
import PlatformClasses.Config.EnvFile
import PlatformClasses.Config.Settings
import PlatformClasses.Declaration.AttachedProperty
import PlatformClasses.Declaration.Basic
import PlatformClasses.Declaration.Model
import PlatformClasses.Declaration.Reading
import PlatformClasses.Draft
import PlatformClasses.Draft.Desk
import PlatformClasses.Fault
import PlatformClasses.FileTree
import PlatformClasses.Log.Event
import PlatformClasses.Log.Journal
import PlatformClasses.Log.Progress
import PlatformClasses.Main
import PlatformClasses.Marker
import PlatformClasses.Path
import PlatformClasses.Platform
import PlatformClasses.Proofs.Backing.Defaults
import PlatformClasses.Proofs.Backing.Differences
import PlatformClasses.Proofs.ClassFile.AttachedMembers
import PlatformClasses.Proofs.ClassFile.Clashes
import PlatformClasses.Proofs.ClassFile.Contents
import PlatformClasses.Proofs.ClassFile.Delegations
import PlatformClasses.Proofs.ClassFile.Destinations
import PlatformClasses.Proofs.ClassFile.ExtensionFiles
import PlatformClasses.Proofs.ClassFile.ExtensionUsings
import PlatformClasses.Proofs.ClassFile.Faults
import PlatformClasses.Proofs.ClassFile.ImportOrder
import PlatformClasses.Proofs.ClassFile.Imports
import PlatformClasses.Proofs.ClassFile.Layout
import PlatformClasses.Proofs.ClassFile.MemberLines
import PlatformClasses.Proofs.ClassFile.PlatformFiles
import PlatformClasses.Proofs.ClassFile.PropertyBlocks
import PlatformClasses.Proofs.ClassFile.PropertyMembers
import PlatformClasses.Proofs.ClassFile.Receivers
import PlatformClasses.Proofs.Command.ExitCodes
import PlatformClasses.Proofs.Declaration.Accessors
import PlatformClasses.Proofs.Declaration.Faults
import PlatformClasses.Proofs.Declaration.Grouping
import PlatformClasses.Proofs.Declaration.Nesting
import PlatformClasses.Proofs.Declaration.Pairing
import PlatformClasses.Proofs.Declaration.Reading
import PlatformClasses.Proofs.Declaration.Resolution
import PlatformClasses.Proofs.Declaration.UsingTexts
import PlatformClasses.Proofs.Draft.Depths
import PlatformClasses.Proofs.Draft.Desk
import PlatformClasses.Proofs.Draft.Layout
import PlatformClasses.Proofs.Draft.Lines
import PlatformClasses.Proofs.Draft.Programs
import PlatformClasses.Proofs.Draft.Spelling
import PlatformClasses.Proofs.FileTree.Listing
import PlatformClasses.Proofs.FileTree.Overwriting
import PlatformClasses.Proofs.FileTree.Places
import PlatformClasses.Proofs.Outcome
import PlatformClasses.Proofs.Path.Names
import PlatformClasses.Proofs.Path.Order
import PlatformClasses.Proofs.Run.Collisions
import PlatformClasses.Proofs.Run.Discovery
import PlatformClasses.Proofs.Run.FailFast
import PlatformClasses.Proofs.Run.InputOrder
import PlatformClasses.Proofs.Run.Jobs
import PlatformClasses.Proofs.Run.Outputs
import PlatformClasses.Proofs.Run.PlatformOrder
import PlatformClasses.Proofs.Run.Rerun
import PlatformClasses.Proofs.Run.SourceNames
import PlatformClasses.Proofs.Run.Stability
import PlatformClasses.Proofs.Source.Cutting
import PlatformClasses.Proofs.Source.Directives
import PlatformClasses.Proofs.Source.InterfaceNames
import PlatformClasses.Proofs.Source.Locality
import PlatformClasses.Proofs.Source.Members
import PlatformClasses.Proofs.Source.Names
import PlatformClasses.Proofs.Source.Positions
import PlatformClasses.Proofs.Source.Quotations
import PlatformClasses.Proofs.Source.Recognition
import PlatformClasses.Proofs.Source.Remainder
import PlatformClasses.Proofs.Source.SetterSource
import PlatformClasses.Proofs.Source.Spelling
import PlatformClasses.Proofs.Source.Statements
import PlatformClasses.Proofs.Source.Words
import PlatformClasses.Proofs.Target.Known
import PlatformClasses.Proofs.Target.Locality
import PlatformClasses.Proofs.Target.MappedTypes
import PlatformClasses.Proofs.Target.Placement
import PlatformClasses.Proofs.Target.Segments
import PlatformClasses.Proofs.TypeRef.Acceptance
import PlatformClasses.Proofs.TypeRef.Constructors
import PlatformClasses.Proofs.TypeRef.Grammar
import PlatformClasses.Proofs.TypeRef.Parsing
import PlatformClasses.Proofs.TypeRef.Recognition
import PlatformClasses.Proofs.TypeRef.RoundTrip
import PlatformClasses.Proofs.TypeRef.Scanning
import PlatformClasses.Proofs.TypeRef.WhiteSpace
import PlatformClasses.Registry
import PlatformClasses.Run
import PlatformClasses.Source.Lexer
import PlatformClasses.Source.Member
import PlatformClasses.Source.Phrase
import PlatformClasses.Source.Recogniser
import PlatformClasses.Source.Token
import PlatformClasses.Source.Tree
import PlatformClasses.SourceFile
import PlatformClasses.Target
import PlatformClasses.Text.Blank
import PlatformClasses.Text.Case
import PlatformClasses.Text.CaseTable
import PlatformClasses.Text.Cut
import PlatformClasses.Text.Integer
import PlatformClasses.Text.Letter
import PlatformClasses.Text.LetterTable
import PlatformClasses.Text.PrintableTable
import PlatformClasses.Text.Quoted
import PlatformClasses.Text.Ranges
import PlatformClasses.Text.Utf8
import PlatformClasses.TypeRef.Basic
import PlatformClasses.TypeRef.Parser
import PlatformClasses.Proofs.TypeRef.ElementTypes
import PlatformClasses.Proofs.Log.Openings
import PlatformClasses.Proofs.Text.Integers
import PlatformClasses.Proofs.Config.Collections
import PlatformClasses.Proofs.Config.Settings
