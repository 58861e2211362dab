import ScopeComplexity.Command

namespace ScopeComplexity.Command

inductive Request where
  | languages
  | analyze (options : Options)

inductive Unclear where
  | noCommand
  | unknownCommand (word : String)
  | unknownOption (word : String)
  | missingValue (option : String)
  | badNumber (word : String)
  | noPaths

def Unclear.message : Unclear → String
  | .noCommand => "Missing command: languages or analyze"
  | .unknownCommand word => "No such command: " ++ word
  | .unknownOption word => "No such option: " ++ word
  | .missingValue option => "Option requires a value: " ++ option
  | .badNumber word => "Not a whole number: " ++ word
  | .noPaths => "Missing argument: files or directories to analyze"

def Options.readWorkers (o : Options) (word : String) : Except Unclear Options :=
  match Decimal.readInt word with
  | .ok n => .ok { o with workers := some (.whole n) }
  | .error _ => .error (.badNumber word)

def Options.switch? (o : Options) (word : String) : Option Options :=
  if ["--spaces", "-s"].contains word then some { o with withScopes := true }
  else if ["--verbose", "-v"].contains word then some { o with verbose := true }
  else if ["--quiet", "-q"].contains word then some { o with quiet := true }
  else none

def Options.value? (o : Options) (word value : String) : Option (Except Unclear Options) :=
  if ["--format", "-f"].contains word then some (.ok { o with format := value })
  else if ["--language", "-l"].contains word then some (.ok { o with language := some value })
  else if ["--workers", "-w"].contains word then some (o.readWorkers value)
  else if ["--config", "-c"].contains word then
    some (.ok { o with config := some (Path.ofText value) })
  else none

def Options.read (o : Options) : List String → Except Unclear Options
  | [] => .ok o
  | word :: rest =>
    match o.switch? word with
    | some o => o.read rest
    | none =>
      if !word.startsWith "-" then { o with paths := o.paths ++ [Path.ofText word] }.read rest
      else
        match rest with
        | [] => .error (if (o.value? word "").isSome then .missingValue word else .unknownOption word)
        | value :: rest =>
          match o.value? word value with
          | none => .error (.unknownOption word)
          | some (.error e) => .error e
          | some (.ok o) => o.read rest

def Request.read : List String → Except Unclear Request
  | [] => .error .noCommand
  | "languages" :: _ => .ok .languages
  | "analyze" :: words => do
    let o ← Options.read { paths := [] } words
    if o.paths.isEmpty then throw .noPaths
    return .analyze o
  | word :: _ => .error (.unknownCommand word)

def styles : List String := ["bold", "cyan", "dim", "green", "red", "yellow"]

def plain (text : String) : String :=
  styles.foldl (fun text style =>
    (text.replace ("[" ++ style ++ "]") "").replace ("[/" ++ style ++ "]") "") text

def rowText (cells : List String) : String := "  ".intercalate (cells.map plain)

def lines : Shown → List String
  | .blank => [""]
  | .line text => [plain text]
  | .table t => t.title :: rowText (t.columns.map (·.header)) :: t.rows.map rowText
  | .tree view => view.outline.map fun (depth, label) =>
    String.ofList (List.replicate (2 * depth) ' ') ++ plain label

def text (o : Outcome) : String :=
  String.join ((o.shown.flatMap lines).map (· ++ "\n")) ++ o.written

end ScopeComplexity.Command
