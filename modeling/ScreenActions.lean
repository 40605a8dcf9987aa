import ScreenActions.Action.Basic
import ScreenActions.Action.Find
import ScreenActions.Action.Labels
import ScreenActions.Action.List
import ScreenActions.Action.Related
import ScreenActions.Action.Script
import ScreenActions.Action.Service
import ScreenActions.Action.SetField
import ScreenActions.Bundle
import ScreenActions.Calendar.Date
import ScreenActions.Calendar.Pattern
import ScreenActions.Calendar.Text
import ScreenActions.CommandLine
import ScreenActions.Config
import ScreenActions.Context
import ScreenActions.Conversion
import ScreenActions.Definition.Document
import ScreenActions.Definition.Element
import ScreenActions.Definition.Screen
import ScreenActions.Entity.Condition
import ScreenActions.Entity.Delegator
import ScreenActions.FieldMap
import ScreenActions.FieldPath
import ScreenActions.FieldStore
import ScreenActions.FileTree
import ScreenActions.Json.Basic
import ScreenActions.Json.Reader
import ScreenActions.Json.Writer
import ScreenActions.Keyed
import ScreenActions.Locale
import ScreenActions.Main
import ScreenActions.Messages.Pattern
import ScreenActions.Messages.Properties
import ScreenActions.Messages.Source
import ScreenActions.Number.Binary64
import ScreenActions.Number.Decimal
import ScreenActions.Number.DecimalText
import ScreenActions.Number.Numeral
import ScreenActions.Number.Shortest
import ScreenActions.Rendering.Calls
import ScreenActions.Rendering.Format
import ScreenActions.Rendering.Screen
import ScreenActions.Rendering.View
import ScreenActions.Scope
import ScreenActions.Script
import ScreenActions.Service
import ScreenActions.Template
import ScreenActions.Text.Blank
import ScreenActions.Text.Markup
import ScreenActions.Text.Quoted
import ScreenActions.Value.Basic
import ScreenActions.Value.Json
import ScreenActions.Value.Text
import ScreenActions.Yaml.Cursor
import ScreenActions.Yaml.Document
import ScreenActions.Yaml.Node
import ScreenActions.Yaml.Scalar
import ScreenActions.Yaml.Token
import ScreenActions.Proofs.ActionRun
import ScreenActions.Proofs.BundleCache
import ScreenActions.Proofs.ActionWrites
import ScreenActions.Proofs.FailureAtomicity
import ScreenActions.Proofs.LayerIsolation
import ScreenActions.Proofs.TemplateExpansion
import ScreenActions.Proofs.PlainPath
import ScreenActions.Proofs.TemplatePrinting
import ScreenActions.Proofs.LabelLayers
import ScreenActions.Proofs.LabelRuns
import ScreenActions.Proofs.KeyedOrder
import ScreenActions.Proofs.MemberWrites
import ScreenActions.Proofs.ContextMaps
import ScreenActions.Proofs.PathLens
import ScreenActions.Proofs.JsonRoundTrip
import ScreenActions.Proofs.EntrySpelling
import ScreenActions.Proofs.EntryLines
import ScreenActions.Proofs.SplitPieces
import ScreenActions.Proofs.TrailLookup
import ScreenActions.Proofs.LocaleTag
import ScreenActions.Proofs.ViewRecord
import ScreenActions.Proofs.ViewCourses
import ScreenActions.Proofs.MarkupText
import ScreenActions.Proofs.ErrorReport
import ScreenActions.Proofs.SourceAgreement
import ScreenActions.Proofs.ConditionPruning
import ScreenActions.Proofs.ActionGrammar
import ScreenActions.Proofs.FieldSetting
import ScreenActions.Proofs.FamilyMerge
import ScreenActions.Proofs.BundleViews
import ScreenActions.Proofs.ContextViews
import ScreenActions.Proofs.LabelFailure
import ScreenActions.Proofs.PathSpelling
import ScreenActions.Proofs.FailedWrites
import ScreenActions.Proofs.ListAppends
import ScreenActions.Proofs.AsciiEntries
import ScreenActions.Proofs.FieldMapping
import ScreenActions.Proofs.CallTrace
import ScreenActions.Proofs.PrimaryKeyFinding
import ScreenActions.Proofs.QueryStrings
import ScreenActions.Proofs.ServiceInput
import ScreenActions.Proofs.EqualityFinding
import ScreenActions.Proofs.Numerals
import ScreenActions.Proofs.MessageQuoting
import ScreenActions.Proofs.WholeConversion
import ScreenActions.Proofs.ExpandedMessages
import ScreenActions.Proofs.TextParts
import ScreenActions.Proofs.ScriptResolution
import ScreenActions.Proofs.TypeNames
import ScreenActions.Proofs.CollectionTexts
import ScreenActions.Proofs.ConversionKinds
import ScreenActions.Proofs.TimestampTexts
