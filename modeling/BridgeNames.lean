import BridgeNames.Decimal.Double
import BridgeNames.Decimal.Shortest
import BridgeNames.Descriptor.DeclaredType
import BridgeNames.Descriptor.Method
import BridgeNames.Descriptor.Read
import BridgeNames.Descriptor.TypeUse
import BridgeNames.Descriptor.Write
import BridgeNames.Json.Choice
import BridgeNames.Json.Number
import BridgeNames.Json.Numeral
import BridgeNames.Json.Quotation
import BridgeNames.Json.Record
import BridgeNames.Json.Shape
import BridgeNames.Json.Token
import BridgeNames.Json.Tree
import BridgeNames.Json.Value
import BridgeNames.Logging
import BridgeNames.Marker
import BridgeNames.Namer
import BridgeNames.Naming.Basic
import BridgeNames.Naming.Error
import BridgeNames.Naming.Event
import BridgeNames.Naming.MethodNames
import BridgeNames.Naming.Segment
import BridgeNames.Naming.TypeName
import BridgeNames.Naming.UseName
import BridgeNames.Options.Basic
import BridgeNames.Options.Read
import BridgeNames.Proofs.Cache.Consistency
import BridgeNames.Proofs.Cache.Growth
import BridgeNames.Proofs.Cache.Lookup
import BridgeNames.Proofs.Cache.OrderFree
import BridgeNames.Proofs.Cache.Resolutions
import BridgeNames.Proofs.Cache.Stability
import BridgeNames.Proofs.Decimal.FewestDigits
import BridgeNames.Proofs.Descriptor.RoundTrip
import BridgeNames.Proofs.Descriptor.Schema
import BridgeNames.Proofs.Json.Filling
import BridgeNames.Proofs.Json.Lexing
import BridgeNames.Proofs.Json.Parsing
import BridgeNames.Proofs.Json.ReadingBack
import BridgeNames.Proofs.Json.Shapes
import BridgeNames.Proofs.Json.Writing
import BridgeNames.Proofs.Marker.ReadBack
import BridgeNames.Proofs.Naming.Alike
import BridgeNames.Proofs.Naming.Asking
import BridgeNames.Proofs.Naming.CutOffsets
import BridgeNames.Proofs.Naming.FirstCut
import BridgeNames.Proofs.Naming.Flattened
import BridgeNames.Proofs.Naming.LabelCount
import BridgeNames.Proofs.Naming.LevelsApart
import BridgeNames.Proofs.Naming.MethodCases
import BridgeNames.Proofs.Naming.MethodOutcome
import BridgeNames.Proofs.Naming.Noted
import BridgeNames.Proofs.Naming.Segmentation
import BridgeNames.Proofs.Naming.SelectorKept
import BridgeNames.Proofs.Naming.Separators
import BridgeNames.Proofs.Naming.ShapesApart
import BridgeNames.Proofs.Naming.SimpleCase
import BridgeNames.Proofs.Naming.TitleForm
import BridgeNames.Proofs.Naming.TypeLevels
import BridgeNames.Proofs.Naming.Use
import BridgeNames.Proofs.Naming.UseLayers
import BridgeNames.Proofs.Naming.WrittenOut
import BridgeNames.Proofs.Options.Grammar
import BridgeNames.Proofs.Supply.Dependence
import BridgeNames.Proofs.Supply.Session
import BridgeNames.Supply.Basic
import BridgeNames.Supply.NameCache
import BridgeNames.Supply.Question
import BridgeNames.Supply.Run
import BridgeNames.Text.Blank
import BridgeNames.Text.CommonPrefix
import BridgeNames.Text.HiddenTable
import BridgeNames.Text.Quoted
import BridgeNames.Text.Segments
import BridgeNames.Text.TitleCase
import BridgeNames.Text.Units
import BridgeNames.Text.UpperTable
