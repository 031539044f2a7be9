import RecordRules.Rule.Meaning
import RecordRules.Decimal.Value
import RecordRules.Dump
import RecordRules.Compile.Load
import RecordRules.Schema.Table
import RecordRules.Proofs.Condition.Forms
import RecordRules.Proofs.Compile.Correct
import RecordRules.Proofs.Induction
import RecordRules.Proofs.Rule.Same
import RecordRules.Proofs.Compile.Same
import RecordRules.Proofs.Compile.Entries
import RecordRules.Proofs.Rule.RoundTrip
import RecordRules.Proofs.Compile.Depth
import RecordRules.Proofs.Schema.Route
import RecordRules.Proofs.Condition.Trace
import RecordRules.Proofs.Condition.Places
import RecordRules.Proofs.Rule.Faults
import RecordRules.Proofs.Compile.Documents
import RecordRules.Proofs.Compile.Log
import RecordRules.Proofs.Rule.Rewrite
import RecordRules.Proofs.Compile.Rewrite
import RecordRules.Proofs.Compile.Typed
import RecordRules.Proofs.Compile.Revision
import RecordRules.Proofs.Decimal.Exact
import RecordRules.Proofs.Decimal.Complete
import RecordRules.Proofs.Compile.Outline
import RecordRules.Proofs.Compile.Builder
import RecordRules.Proofs.Compile.Rearrangement
import RecordRules.Proofs.Compile.Absence
import RecordRules.Proofs.Rule.Respelled
import RecordRules.Proofs.Value.Elementwise
import RecordRules.Proofs.Compile.Spelling
import RecordRules.Proofs.Compile.Order
import RecordRules.Proofs.Compile.Printed
import RecordRules.Proofs.Schema.Descent
