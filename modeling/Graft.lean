import Graft.Text.Hex
import Graft.Text.Quoted
import Graft.Text.Place
import Graft.Unicode.Ranges
import Graft.Unicode.Category
import Graft.Unicode.Script
import Graft.Unicode.Property
import Graft.Unicode.Fold
import Graft.Unicode.Class
import Graft.Decimal.Binary64
import Graft.Decimal.Shortest
import Graft.Json.Basic
import Graft.Json.Writer
import Graft.Json.Reader
import Graft.Json.Relaxed
import Graft.Json.Raw
import Graft.Regex.Expr
import Graft.Regex.Flags
import Graft.Regex.Escape
import Graft.Regex.Bracket
import Graft.Regex.Parser
import Graft.Regex.Program
import Graft.Regex.Search
import Graft.Tree.Position
import Graft.Tree.Node
import Graft.Tree.Path
import Graft.Tree.Encode
import Graft.Tree.DataError
import Graft.Tree.Decode
import Graft.Tree.Document
import Graft.Tree.ElementTest
import Graft.Tree.Walk
import Graft.Rule.Pattern
import Graft.Rule.Replacer
import Graft.Rule.RuleSet
import Graft.Rule.Decode
import Graft.Splice.Leaf
import Graft.Splice.Pass
import Graft.Config.Basic
import Graft.Config.Decode
import Graft.FileSystem.Basic
import Graft.FileSystem.Access
import Graft.Command.Line
import Graft.Command.Host
import Graft.Command.Failure
import Graft.Command.Apply
import Graft.Command.Init
import Graft.Command.Run
import Graft.Main
import Graft.Proofs.Reading
import Graft.Proofs.Tree.View
import Graft.Proofs.Tree.Way
import Graft.Proofs.Tree.Editing
import Graft.Proofs.Splice.Rewriting
import Graft.Proofs.Splice.Scan
import Graft.Proofs.Splice.View
import Graft.Proofs.Splice.Recording
import Graft.Proofs.Splice.Partition
import Graft.Proofs.Tree.Order
import Graft.Proofs.Tree.Visits
import Graft.Proofs.Tree.Sources
import Graft.Proofs.Splice.Calls
import Graft.Proofs.Splice.Ignored
import Graft.Proofs.Text.Part
import Graft.Proofs.Text.Split
import Graft.Proofs.Text.Apart
import Graft.Proofs.Regex.Literal
import Graft.Proofs.Rule.Fitting
import Graft.Proofs.Splice.Literal
import Graft.Proofs.Tree.Texts
import Graft.Proofs.Tree.Replacing
import Graft.Proofs.Splice.Replacing
import Graft.Proofs.Splice.Settling
import Graft.Proofs.Splice.Exchanging
import Graft.Proofs.Splice.Lifting
import Graft.Proofs.Splice.Wrapping
import Graft.Proofs.Tree.Marks
import Graft.Proofs.Tree.Tour
import Graft.Proofs.Json.Keys
import Graft.Proofs.Tree.Everywhere
import Graft.Proofs.Tree.Fields
import Graft.Proofs.Tree.Reading
import Graft.Proofs.Tree.RoundTrip
import Graft.Proofs.Json.Quoting
import Graft.Proofs.Json.Numeral
import Graft.Proofs.Json.Nesting
import Graft.Proofs.Json.Remainder
import Graft.Proofs.Json.Raw
import Graft.Proofs.Json.StandsFor
import Graft.Proofs.Json.Spelling
import Graft.Proofs.Tree.Document
import Graft.Proofs.Tree.Rereading
import Graft.Proofs.Tree.Nesting
import Graft.Proofs.Splice.Unmatched
import Graft.Proofs.Command.Output
import Graft.Proofs.Decimal.Rounding
import Graft.Proofs.Json.NumberText
import Graft.Proofs.Json.Distinct
import Graft.Proofs.Json.Canonical
import Graft.Proofs.Tree.Canonical
import Graft.Proofs.Splice.Inserted
import Graft.Proofs.Rule.Reading
import Graft.Proofs.Command.Stages
import Graft.Proofs.FileSystem.Leading
import Graft.Proofs.Command.Check
import Graft.Proofs.Tree.Forward
import Graft.Proofs.Tree.Lineage
import Graft.Proofs.Splice.Hidden
import Graft.Proofs.Rule.Relay
import Graft.Proofs.FileSystem.Writing
import Graft.Proofs.Command.Effects
import Graft.Proofs.Command.Notations
import Graft.Proofs.Tree.Grammar
import Graft.Proofs.Tree.Gathering
import Graft.Proofs.Tree.Accepting
import Graft.Proofs.Tree.Outermost
import Graft.Proofs.Tree.Survivors
import Graft.Proofs.Splice.Edits
import Graft.Proofs.Splice.Frame
import Graft.Proofs.Tree.Outline
import Graft.Proofs.Tree.Lockstep
import Graft.Proofs.Splice.Outlasting
import Graft.Proofs.Splice.Metadata
import Graft.Proofs.Text.Places
import Graft.Proofs.Regex.Occurrence
import Graft.Proofs.Splice.Sweep
import Graft.Proofs.Splice.Turns
import Graft.Proofs.Rule.Grammar
import Graft.Proofs.Rule.Accepting
import Graft.Proofs.FileSystem.Creating
import Graft.Proofs.Command.Starter
import Graft.Proofs.Tree.Addressing
