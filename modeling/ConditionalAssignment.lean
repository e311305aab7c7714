import ConditionalAssignment.Main
import ConditionalAssignment.Program.Construction
import ConditionalAssignment.Proofs.Bracket.Blame
import ConditionalAssignment.Proofs.Command.Agreement
import ConditionalAssignment.Proofs.Indexed.Partner
import ConditionalAssignment.Proofs.Indexed.Range
import ConditionalAssignment.Proofs.Lexing.Bytes
import ConditionalAssignment.Proofs.Lexing.Spacing
import ConditionalAssignment.Proofs.Source.Closing
import ConditionalAssignment.Proofs.Source.Concatenation
import ConditionalAssignment.Proofs.Source.Delimiter
import ConditionalAssignment.Proofs.Source.Events
import ConditionalAssignment.Proofs.Source.Leaves
import ConditionalAssignment.Proofs.Source.Placement
import ConditionalAssignment.Proofs.Lexing.Place
import ConditionalAssignment.Proofs.Lexing.Seam
import ConditionalAssignment.Proofs.Lexing.Longest
import ConditionalAssignment.Proofs.Bracket.Place
import ConditionalAssignment.Proofs.Grammar.Composition
import ConditionalAssignment.Proofs.Source.Diagnosis
import ConditionalAssignment.Proofs.Source.Shape
import ConditionalAssignment.Proofs.Source.Construction
import ConditionalAssignment.Proofs.Source.Reassociation
import ConditionalAssignment.Proofs.Source.Termination
import ConditionalAssignment.Proofs.Tree.Drawing
