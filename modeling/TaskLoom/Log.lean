import TaskLoom.Graph.Program
import TaskLoom.Text.Quoted

/-!
# Log entries

Diagnostics are collected as entries and written at the end, those below a threshold left out.  An
entry is written as a line of text or as an object; the fields of an entry keep their order in a
line and are ordered by name in an object.
-/

namespace TaskLoom

inductive LogLevel where
  | trace
  | debug
  | info
  | warn
  | error
  deriving DecidableEq, Repr, Inhabited

namespace LogLevel

def rank : LogLevel → Nat
  | .trace => 0
  | .debug => 1
  | .info => 2
  | .warn => 3
  | .error => 4

def text : LogLevel → String
  | .trace => "trace"
  | .debug => "debug"
  | .info => "info"
  | .warn => "warn"
  | .error => "error"

/-- How a level is marked in a line; all marks have one width. -/
def mark : LogLevel → String
  | .trace => "[TRACE]"
  | .debug => "[DEBUG]"
  | .info => "[INFO] "
  | .warn => "[WARN] "
  | .error => "[ERROR]"

def all : List LogLevel := [.trace, .debug, .info, .warn, .error]

end LogLevel

/-- The least level that is written; without one nothing is. -/
abbrev LogThreshold := Option LogLevel

/-- The threshold of a name in any case.  A name that is none of a level means `info`. -/
def LogThreshold.ofText (s : String) : LogThreshold :=
  let name := (Text.trim s).toLower
  if name == "off" then none
  else some ((LogLevel.all.find? (·.text == name)).getD .info)

def LogThreshold.admits (t : LogThreshold) (level : LogLevel) : Bool :=
  match t with
  | none => false
  | some least => least.rank ≤ level.rank

inductive LogValue where
  | text (s : String)
  | number (n : Int)
  | list (items : List String)
  deriving DecidableEq, Repr, Inhabited

def LogValue.display : LogValue → String
  | .text s => s
  | .number n => toString n
  | .list xs => bracketed xs

structure LogEntry where
  /-- The part of the program that speaks. -/
  logger : String
  level : LogLevel
  message : String
  fields : List (String × LogValue) := []
  deriving DecidableEq, Repr, Inhabited

/-- The name of the program in its log. -/
def rootLogger : String := "taskhdl"

/-! ### Lines -/

/-- A character inside a quoted field; only what is not printable is escaped, and a quote if it
would end the field. -/
def fieldChar (escapeQuotes : Bool) (c : Char) : List Char :=
  if escapeQuotes && c == '"' then ['\\', '"']
  else if Text.isPrintable c then [c]
  else if c.toNat == 0x7F then '\\' :: 'u' :: Text.hexDigits 4 0x7F
  else Text.escape c

/-- Whether a field can stand without quotes. -/
def isPlainField (s : String) : Bool := s.toList.all fun c => '-' ≤ c && c ≤ '~'

/-- The lines of a field of several lines; a last line without characters is left out. -/
def indentedLines (s : String) : String :=
  let pieces := Text.splitOn '\n' s.toList
  let pieces := if pieces.getLast? == some [] then pieces.dropLast else pieces
  String.join (pieces.map fun p => "  | " ++ String.ofList (p.flatMap (fieldChar false)) ++ "\n")

/-- A field behind the message of a line. -/
def LogValue.inLine (key : String) (v : LogValue) : String :=
  let (shown, isRaw) := match v with
    | .text s => if s == "" then ("\"\"", true) else (s, false)
    | .number n => (toString n, false)
    | .list xs => ("[" ++ String.intercalate ", " (xs.map Text.quote) ++ "]", true)
  if shown.toList.contains '\n' then "\n  " ++ key ++ "=\n" ++ indentedLines shown ++ "  "
  else if isRaw || isPlainField shown then " " ++ key ++ "=" ++ shown
  else " " ++ key ++ "=\"" ++ String.ofList (shown.toList.flatMap (fieldChar true)) ++ "\""

/-- An entry as a line. -/
def LogEntry.line (e : LogEntry) : String :=
  let message := if e.message == "" then "" else ": " ++ e.message
  let fields := if e.fields.isEmpty then ""
    else ":" ++ String.join (e.fields.map fun (k, v) => v.inLine k)
  e.level.mark ++ " " ++ e.logger ++ message ++ fields ++ "\n"

/-! ### Objects -/

/-- A character inside the quotes of an object's text. -/
def objectChar (c : Char) : List Char :=
  match c with
  | '"' => ['\\', '"']
  | '\\' => ['\\', '\\']
  | '\n' => ['\\', 'n']
  | '\r' => ['\\', 'r']
  | '\t' => ['\\', 't']
  | '\x08' => ['\\', 'b']
  | '\x0c' => ['\\', 'f']
  | _ =>
    let n := c.toNat
    if n < 0x20 || n == 0x2028 || n == 0x2029 || c == '<' || c == '>' || c == '&' then
      '\\' :: 'u' :: Text.hexDigits 4 n
    else [c]

def objectText (s : String) : String :=
  String.ofList ('"' :: (s.toList.flatMap objectChar ++ ['"']))

def LogValue.inObject : LogValue → String
  | .text s => objectText s
  | .number n => toString n
  | .list xs => "[" ++ String.intercalate "," (xs.map objectText) ++ "]"

/-- An entry as an object on one line. -/
def LogEntry.object (e : LogEntry) : String :=
  let own := [("@level", LogValue.text e.level.text), ("@message", .text e.message),
    ("@module", .text e.logger)]
  let members := (Text.sortedBy Prod.fst (own ++ e.fields)).map fun (k, v) =>
    objectText k ++ ":" ++ v.inObject
  "\x7b" ++ String.intercalate "," members ++ "\x7d\n"

/-! ### Writing -/

inductive LogFormat where
  | line
  | object
  deriving DecidableEq, Repr

def LogFormat.ofText (s : String) : LogFormat := if s == "json" then .object else .line

structure LogSink where
  format : LogFormat
  threshold : LogThreshold
  deriving DecidableEq, Repr

def LogSink.write (s : LogSink) (e : LogEntry) : String :=
  if !s.threshold.admits e.level then ""
  else match s.format with
    | .line => e.line
    | .object => e.object

/-- Writes entries in order. -/
def LogSink.writeAll (s : LogSink) (es : List LogEntry) : String := String.join (es.map s.write)

/-- Reports diagnostics to a sink, if there is one, and counts the errors among them. -/
structure Reporter where
  sink : Option LogSink
  errors : Nat := 0
  deriving DecidableEq, Repr

/-- Reports one text: what is written, and the reporter after it. -/
def Reporter.report (r : Reporter) (level : LogLevel) (message : String) : String × Reporter :=
  let written := match r.sink with
    | none => ""
    | some s => s.write ⟨rootLogger, level, message, []⟩
  (written, if level = .error then { r with errors := r.errors + 1 } else r)

def Reporter.hasErrors (r : Reporter) : Bool := 0 < r.errors

/-- The entries of a failed check. -/
def Reporter.errorEntries (messages : List String) : List LogEntry :=
  messages.map fun m => ⟨rootLogger, .error, m, []⟩

end TaskLoom
