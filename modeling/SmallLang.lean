import SmallLang.Language.Dump
import SmallLang.Proofs.Lookahead.Follow
import SmallLang.Proofs.Parsing.Guided
import SmallLang.Proofs.Parsing.Stacks
import SmallLang.Proofs.Reach
import SmallLang.Value.Render
import SmallLang.Proofs.Lookahead.ParseTable
import SmallLang.Proofs.Operator.Ladder
import SmallLang.Proofs.Assembly.Lowering
import SmallLang.Proofs.Assembly.Shape
import SmallLang.Proofs.Operator.Staged
import SmallLang.Proofs.Operator.Unfold
import SmallLang.Proofs.Assembly.Extend
import SmallLang.Proofs.Assembly.Succeeds
import SmallLang.Proofs.Infix.Language
import SmallLang.Proofs.Infix.Ladder
import SmallLang.Proofs.Infix.Table
import SmallLang.Proofs.Infix.Expression
import SmallLang.Proofs.Infix.Exact
import SmallLang.Proofs.Operator.Stage
import SmallLang.Proofs.Extension.Grammar
import SmallLang.Proofs.Extension.Embed
import SmallLang.Proofs.Extension.Operand
import SmallLang.Proofs.Extension.Holder
import SmallLang.Proofs.Extension.Carry
import SmallLang.Proofs.Extension.Simulate
import SmallLang.Proofs.Extension.Lowering
import SmallLang.Proofs.Extension.Language
import SmallLang.Proofs.Operator.Values
import SmallLang.Proofs.Assembly.Fields
import SmallLang.Proofs.Nodes
import SmallLang.Proofs.Kinds
import SmallLang.Proofs.FieldTypes
import SmallLang.Proofs.Mixed.Ladder
import SmallLang.Proofs.Mixed.Words
import SmallLang.Proofs.Mixed.Greedy
import SmallLang.Proofs.Mixed.Exact
import SmallLang.Proofs.Mixed.Lowering
import SmallLang.Proofs.Mixed.Language
import SmallLang.Proofs.Renumbering.Grammar
import SmallLang.Proofs.Renumbering.Lookahead
import SmallLang.Proofs.Renumbering.Parse
import SmallLang.Proofs.Renumbering.Step
import SmallLang.Proofs.Renumbering.Exchange
import SmallLang.Proofs.Renumbering.Stratify
import SmallLang.Proofs.Parsing.Unambiguous
import SmallLang.Proofs.Parsing.Earliest
import SmallLang.Proofs.Renaming.Types
import SmallLang.Proofs.Renaming.Lowering
import SmallLang.Proofs.Renaming.Substitution
import SmallLang.Proofs.Renaming.Values
import SmallLang.Proofs.Operator.Supplied
import SmallLang.Proofs.Renumbering.Language
import SmallLang.Proofs.Renaming.Heir
import SmallLang.Proofs.Assembly.Terminals
import SmallLang.Proofs.Reordering.Settle
import SmallLang.Proofs.Reordering.Lowering
import SmallLang.Proofs.Reordering.Language
import SmallLang.Proofs.Lookahead.FollowExact
import SmallLang.Proofs.Lookahead.Resolved
import SmallLang.Proofs.Lookahead.LeftRecursionExact
import SmallLang.Proofs.Parsing.Placed
import SmallLang.Proofs.Parsing.Termination
import SmallLang.Proofs.Scanning.Layout
import SmallLang.Proofs.Scanning.Partition
import SmallLang.Proofs.Assembly.WellDeclared
import SmallLang.Proofs.Operator.Asked
import SmallLang.Proofs.Assembly.Blamed
import SmallLang.Proofs.Scanning.Winner
import SmallLang.Proofs.Scanning.Literals
import SmallLang.Proofs.Parsing.Alike
import SmallLang.Proofs.Scanning.Rebuilt
import SmallLang.Proofs.Parsing.Ranges
import SmallLang.Proofs.Priorities.Lowering
import SmallLang.Proofs.Priorities.Grammar
import SmallLang.Proofs.Priorities.Ladder
import SmallLang.Proofs.Priorities.Language
import SmallLang.Proofs.Operator.Ending
import SmallLang.Proofs.Lists.Grammar
import SmallLang.Proofs.Lists.Language
import SmallLang.Proofs.Prefix.Extent
import SmallLang.Proofs.Prefix.Tree
import SmallLang.Proofs.Prefix.Ladder
import SmallLang.Proofs.Prefix.Language
import SmallLang.Proofs.Inlining.Language
import SmallLang.Proofs.FreeNames
import SmallLang.Proofs.Operator.OneStep
import SmallLang.Proofs.Wrappers
import SmallLang.Proofs.Operator.Origin
import SmallLang.Proofs.Operator.Checked
import SmallLang.Proofs.NamedFields
import SmallLang.Proofs.Scanning.Greatest
import SmallLang.Proofs.Pattern.Matching
import SmallLang.Proofs.Scanning.Classes
import SmallLang.Proofs.Scanning.Respacing
import SmallLang.Proofs.Parsing.InputEnd
import SmallLang.Proofs.Pattern.Ways
import SmallLang.Proofs.Pattern.Reads
import SmallLang.Proofs.Pattern.Enclosed
import SmallLang.Proofs.Pattern.EnclosedClass
import SmallLang.Proofs.Pattern.Wrapped
import SmallLang.Proofs.Scanning.Anchored
import SmallLang.Proofs.Scanning.Decoded
import SmallLang.Proofs.Interning
import SmallLang.Proofs.Names
import SmallLang.Proofs.Parsing.Display
import SmallLang.Proofs.Lookahead.WordSet
