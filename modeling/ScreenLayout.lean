import ScreenLayout.Screen
import ScreenLayout.Proofs.Style.Entrywise
import ScreenLayout.Proofs.Document.Wrapping
import ScreenLayout.Proofs.Screen.Accounting
import ScreenLayout.Proofs.Number.Written
import ScreenLayout.Proofs.Style.Token
import ScreenLayout.Proofs.Style.ShorthandWrites
import ScreenLayout.Proofs.Style.RuleWrites
import ScreenLayout.Proofs.Style.Canonical
import ScreenLayout.Proofs.Number.ReadBack
import ScreenLayout.Proofs.Text.Blank
import ScreenLayout.Proofs.Style.Dimension
import ScreenLayout.Proofs.Style.GradientParts
import ScreenLayout.Proofs.Style.GradientText
import ScreenLayout.Proofs.Style.Patches
import ScreenLayout.Proofs.Style.Logged
import ScreenLayout.Proofs.Style.Data
import ScreenLayout.Proofs.Style.Finite
import ScreenLayout.Proofs.Style.PropertyName
import ScreenLayout.Proofs.Style.FinalForm
import ScreenLayout.Proofs.Style.Recompile
import ScreenLayout.Proofs.Json.Fields
import ScreenLayout.Proofs.Value.Resolved
import ScreenLayout.Proofs.View.Props
import ScreenLayout.Proofs.Screen.Spelling
import ScreenLayout.Proofs.Style.Settings
import ScreenLayout.Proofs.Style.Lossless
import ScreenLayout.Proofs.Value.Chain
import ScreenLayout.Proofs.Value.Path
import ScreenLayout.Style.Writer
import ScreenLayout.Proofs.Text.Bytes
import ScreenLayout.Proofs.Style.Expansion
import ScreenLayout.Proofs.Style.Framing
import ScreenLayout.Proofs.Style.InPlace
import ScreenLayout.Proofs.Style.History
import ScreenLayout.Proofs.Document.Search
import ScreenLayout.Proofs.Style.TokenPattern
import ScreenLayout.Proofs.Style.Munch
import ScreenLayout.Proofs.Style.Scan
import ScreenLayout.Proofs.Style.Separation
import ScreenLayout.Proofs.Style.PartOrder
import ScreenLayout.Proofs.Number.Range
import ScreenLayout.Proofs.Number.Numeral
import ScreenLayout.Proofs.Number.Prefix
import ScreenLayout.Proofs.Style.TokenLength
import ScreenLayout.Proofs.Style.LengthReaders
import ScreenLayout.Proofs.Style.NumberText
import ScreenLayout.Proofs.Style.BoxSides
import ScreenLayout.Proofs.Text.Squeeze
import ScreenLayout.Proofs.Style.FontWords
import ScreenLayout.Proofs.Style.FontText
import ScreenLayout.Proofs.Value.Aliases
import ScreenLayout.Proofs.Component.Dispatch
import ScreenLayout.Proofs.Document.Precedence
import ScreenLayout.Proofs.Number.Whole
import ScreenLayout.Proofs.View.Counts
import ScreenLayout.Proofs.View.Lists
import ScreenLayout.Proofs.Style.GradientScan
