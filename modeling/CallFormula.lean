import CallFormula.Text.Basic
import CallFormula.Text.Capital
import CallFormula.Text.Quoted
import CallFormula.Number
import CallFormula.Table
import CallFormula.Function
import CallFormula.Context
import CallFormula.Tree
import CallFormula.Registry
import CallFormula.Formula
import CallFormula.Calculator.Basic
import CallFormula.Shared
import CallFormula.Host.Builders
import CallFormula.Proofs.Action
import CallFormula.Proofs.Text.Bytes
import CallFormula.Proofs.Table
import CallFormula.Proofs.Context
import CallFormula.Proofs.Number.Bits
import CallFormula.Proofs.Number.Rounding
import CallFormula.Proofs.Number.Closest
import CallFormula.Proofs.Number.Order
import CallFormula.Proofs.Number.Extremes
import CallFormula.Proofs.Formula.Brackets
import CallFormula.Proofs.Formula.Lexemes
import CallFormula.Proofs.Formula.Pieces
import CallFormula.Proofs.Formula.Purity
import CallFormula.Proofs.Formula.Sketch
import CallFormula.Proofs.Formula.Assembly
import CallFormula.Proofs.Registry.Names
import CallFormula.Proofs.Registry.Ordinary
import CallFormula.Proofs.Registry.Changes
import CallFormula.Proofs.Registry.Latest
import CallFormula.Proofs.Number.Texts
import CallFormula.Proofs.Tree.StackMachine
import CallFormula.Proofs.Tree.Equality
import CallFormula.Proofs.Registry.Arguments
import CallFormula.Proofs.Registry.Mathematics
import CallFormula.Proofs.Registry.Versions
import CallFormula.Proofs.Tree.Renaming
import CallFormula.Proofs.Formula.Derivation
import CallFormula.Proofs.Formula.Unambiguity
import CallFormula.Proofs.Formula.RoundTrip
import CallFormula.Proofs.Formula.Nesting
import CallFormula.Proofs.Formula.Tight
import CallFormula.Proofs.Formula.Spacing
import CallFormula.Proofs.Formula.LetterCase
import CallFormula.Proofs.Formula.Literals
import CallFormula.Proofs.Formula.Coincidence
import CallFormula.Proofs.Formula.Faults
import CallFormula.Proofs.Formula.Cuts
import CallFormula.Proofs.Formula.Regular
import CallFormula.Proofs.Formula.Offsets
import CallFormula.Proofs.Formula.Activations
import CallFormula.Proofs.Formula.Descent
import CallFormula.Proofs.Tree.Indistinct
import CallFormula.Proofs.Calculator.Transparency
import CallFormula.Proofs.Calculator.History
import CallFormula.Proofs.Shared.Snapshot
