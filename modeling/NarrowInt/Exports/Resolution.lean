import NarrowInt.Exports.Table
import NarrowInt.Text.Quoted

/-!
# Resolving names

An entry point is found by the name of its symbol. Each attempt leaves one record in the log: the
name as it stands when it resolves, the quoted name and the reason when it does not.

## Main definitions

* `WidthSet.lookup`: the entry point of a name, or the reason why there is none
* `LogRecord`: a level and a text
* `WidthSet.resolve`: the entry point of a name, with the log of the attempt
-/

namespace NarrowInt

/-- How much attention a log record asks for. -/
inductive LogLevel
  | trace
  | debug
deriving DecidableEq

/-- The word for a level at the start of a log line. -/
def LogLevel.label : LogLevel → List Char
  | .trace => ['T', 'R', 'A', 'C', 'E']
  | .debug => ['D', 'E', 'B', 'U', 'G']

/-- A record in the log. -/
structure LogRecord where
  level : LogLevel
  text : List Char
deriving DecidableEq

/-- The line of a log record: its level and its text. -/
def LogRecord.line (r : LogRecord) : List Char := r.level.label ++ ' ' :: r.text

/-- The outcome of resolving a name: the entry point, if any, and the records left in the log. -/
structure Resolution where
  entry : Option EntryPoint
  log : List LogRecord

namespace WidthSet

variable (W : WidthSet)

/-- The entry point of a name. -/
def lookup (name : List Char) : Except NameError EntryPoint :=
  (Symbol.read name).bind W.entryPoint

/-- The record of a name that resolved to the symbol `s`. -/
def resolvedRecord (name : List Char) (s : Symbol) : LogRecord :=
  ⟨.trace, "resolved ".toList ++ name ++ " to ".toList ++ s.family.record {} ++
    ' ' :: s.operation.label⟩

/-- The record of a name that did not resolve. -/
def unresolvedRecord (name : List Char) (e : NameError) : LogRecord :=
  ⟨.debug, "cannot resolve ".toList ++ Text.quote name ++ ": ".toList ++ e.message.toList⟩

/-- The entry point of a name, if there is one, and the record of the attempt. -/
def resolve (name : List Char) : Resolution :=
  match W.lookup name with
  | .ok e => ⟨some e, [resolvedRecord name e.symbol]⟩
  | .error e => ⟨none, [unresolvedRecord name e]⟩

end WidthSet

end NarrowInt
