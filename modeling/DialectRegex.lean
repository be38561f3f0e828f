import DialectRegex.Dialect.Named
import DialectRegex.Matching.Guarded
import DialectRegex.Program.Layout
import DialectRegex.Program.Parser
import DialectRegex.Program.Walker
import DialectRegex.Source
import DialectRegex.Stream.Pending
import DialectRegex.Template
import DialectRegex.Proofs.Matching.Ends
import DialectRegex.Proofs.Matching.Expansion
import DialectRegex.Proofs.Matching.Tests
import DialectRegex.Proofs.Matching.Reach
import DialectRegex.Proofs.Grammar.Moves
import DialectRegex.Proofs.Text.Characters
import DialectRegex.Proofs.Grammar.Forms
import DialectRegex.Proofs.Grammar.Positions
import DialectRegex.Proofs.Program.Layout
import DialectRegex.Proofs.Program.WellFormed
import DialectRegex.Proofs.Program.Cursor
import DialectRegex.Proofs.Program.Linking
import DialectRegex.Proofs.Program.Parser
import DialectRegex.Proofs.Program.Compiled
import DialectRegex.Proofs.Matching.Bounded
import DialectRegex.Proofs.Matching.Captures
import DialectRegex.Proofs.Matching.Language
import DialectRegex.Proofs.Grammar.Counting
import DialectRegex.Proofs.Matching.Copies
import DialectRegex.Proofs.Matching.Unrolling
import DialectRegex.Proofs.Matching.Merging
import DialectRegex.Proofs.Matching.Walks
import DialectRegex.Proofs.Matching.Recall
import DialectRegex.Proofs.Matching.Ranges
import DialectRegex.Proofs.Matching.States
import DialectRegex.Proofs.Matching.Coupling
import DialectRegex.Proofs.Matching.Sight
import DialectRegex.Proofs.Matching.Guarded
import DialectRegex.Proofs.Text.Decoding
import DialectRegex.Proofs.Text.Lossy
import DialectRegex.Proofs.Text.Redecoding
import DialectRegex.Proofs.Stream.Serving
import DialectRegex.Proofs.Stream.Access
import DialectRegex.Proofs.Stream.Reading
import DialectRegex.Proofs.Stream.Contents
import DialectRegex.Proofs.Stream.Reported
import DialectRegex.Proofs.Matching.Limits
import DialectRegex.Proofs.Matching.Iteration
import DialectRegex.Proofs.Stream.Enumeration
import DialectRegex.Proofs.Pattern.Reread
import DialectRegex.Proofs.Grammar.Spelling
import DialectRegex.Proofs.Grammar.Rereading
import DialectRegex.Proofs.Matching.Rendered
import DialectRegex.Proofs.Matching.Shifted
import DialectRegex.Proofs.Matching.Likeness
import DialectRegex.Proofs.Matching.Remainder
import DialectRegex.Proofs.Text.Letters
import DialectRegex.Proofs.Matching.Caseless
import DialectRegex.Proofs.Stream.Memory
import DialectRegex.Proofs.Stream.Interleaving
import DialectRegex.Proofs.Matching.Reordered
import DialectRegex.Proofs.Matching.Anchored
import DialectRegex.Proofs.Matching.Replacement
import DialectRegex.Proofs.Grammar.Respelling
import DialectRegex.Proofs.Pattern.Chains
import DialectRegex.Proofs.Grammar.Anchors
import DialectRegex.Proofs.Matching.Leftmost
import DialectRegex.Proofs.Text.RangeTables
import DialectRegex.Proofs.Grammar.IgnoringCase
import DialectRegex.Proofs.Matching.Widening
import DialectRegex.Proofs.Matching.Frontiers
import DialectRegex.Proofs.Program.Walker
import DialectRegex.Proofs.Program.Traversal
import DialectRegex.Proofs.Program.Termination
import DialectRegex.Proofs.Program.Agreement
import DialectRegex.Proofs.Pattern.Lengths
import DialectRegex.Proofs.Matching.Lengths
import DialectRegex.Proofs.Grammar.Members
import DialectRegex.Proofs.Grammar.Delimited
import DialectRegex.Proofs.Grammar.Lexemes
import DialectRegex.Proofs.Grammar.Faults
import DialectRegex.Proofs.Grammar.Intervals
import DialectRegex.Proofs.Text.CaseMappings
import DialectRegex.Proofs.Text.CasedRanges
import DialectRegex.Proofs.Text.CaseEquality
import DialectRegex.Proofs.Stream.Failing
import DialectRegex.Proofs.Stream.Pending
