import NarrowInt.Build.Generation
import NarrowInt.Calculator
import NarrowInt.Exports.Program
import NarrowInt.Exports.TypeCode
import NarrowInt.Main
import NarrowInt.Number.Lemmas
import NarrowInt.Number.Machine
import NarrowInt.Proofs.Build.Listing
import NarrowInt.Proofs.Build.Report
import NarrowInt.Proofs.Build.Selection
import NarrowInt.Proofs.Build.Setting
import NarrowInt.Proofs.Build.Source
import NarrowInt.Proofs.Calculator
import NarrowInt.Proofs.Cast
import NarrowInt.Proofs.Computation
import NarrowInt.Proofs.Digits
import NarrowInt.Proofs.Division
import NarrowInt.Proofs.Encoding
import NarrowInt.Proofs.Exports.Log
import NarrowInt.Proofs.Exports.Order
import NarrowInt.Proofs.Exports.Program
import NarrowInt.Proofs.Exports.TypeCode
import NarrowInt.Proofs.Expression
import NarrowInt.Proofs.Floating.Integer
import NarrowInt.Proofs.Floating.Order
import NarrowInt.Proofs.Floating.RoundTrip
import NarrowInt.Proofs.Floating.Words
import NarrowInt.Proofs.NameError
import NarrowInt.Proofs.Native
import NarrowInt.Proofs.Order
import NarrowInt.Proofs.Promotion
