import VirtualShell.Text.Base64
import VirtualShell.Text.Split

/-!
# Results of commands

A command answers with a result: whether it succeeded, an exit code, output, perhaps an error
message, and perhaps a request to the host of the shell. Output is plain text or a list of segments
with a style each, so that a host can color a listing without the commands knowing about colors.
-/

namespace VirtualShell

/-- A run of output text with its style. The styles are open: `normal` is the plain one, and a host
shows the ones that it knows. -/
structure Segment where
  text : String
  style : String := "normal"
  deriving DecidableEq, Repr

/-- The output of a command. -/
inductive Output where
  | text (s : String)
  | segments (parts : List Segment)
  deriving DecidableEq, Repr

namespace Output

/-- The plain text of an output. -/
def plain : Output → String
  | .text s => s
  | .segments parts => String.join (parts.map Segment.text)

/-- An output as segments: text is one segment of the plain style. -/
def parts : Output → List Segment
  | .text s => [{ text := s }]
  | .segments parts => parts

end Output

/-! ## Requests to the host -/

/-- What a command asks of the host. -/
inductive HostAction where
  /-- Clear the screen. -/
  | clearScreen
  /-- Open the editor on a file with this content. -/
  | openEditor (filename content : String)
  deriving DecidableEq, Repr

namespace HostAction

/-- What the text form of an editor request starts with. -/
def editorMark : String := "OPEN_EDITOR:"

/-- The text form of a request. The content of a file is written in Base64, so the last colon ends
the name of the file. -/
def encode : HostAction → String
  | .clearScreen => "CLEAR"
  | .openEditor filename content =>
    let bytes := content.toUTF8.data.toList.map UInt8.toNat
    editorMark ++ filename ++ ":" ++ String.ofList (Text.Base64.encode bytes)

/-- The text that bytes write in UTF-8. -/
def textOfBytes? (bytes : List Nat) : Option String :=
  String.fromUTF8? ⟨(bytes.map Nat.toUInt8).toArray⟩

/-- What stands before and after the last colon. -/
def splitLastColon? (cs : List Char) : Option (List Char × List Char) :=
  let tail := cs.reverse.takeWhile (· != ':')
  match cs.reverse.drop tail.length with
  | _ :: front => some (front.reverse, tail.reverse)
  | [] => none

/-- The editor request that a text is the form of. -/
def decodeEditor? (text : String) : Option HostAction := do
  let cs := text.toList
  if !editorMark.toList.isPrefixOf cs then none
  else
    let (filename, encoded) ← splitLastColon? (cs.drop editorMark.length)
    if !encoded.all fun c => c.toNat < 0x80 then none
    else
      let bytes ← Text.Base64.decode? encoded
      let content ← textOfBytes? bytes
      some (.openEditor (String.ofList filename) content)

end HostAction

/-! ## Results -/

/-- The result of a command or of a whole line. -/
structure Result where
  success : Bool := true
  output : Output := .text ""
  error : Option String := none
  exitCode : Int := 0
  action : Option HostAction := none
  deriving DecidableEq, Repr

namespace Result

/-- Success with some output. -/
def ok (output : Output := .text "") : Result :=
  { output }

/-- Success with plain text. -/
def say (s : String) : Result :=
  { output := .text s }

/-- Success with a request to the host. -/
def request (action : HostAction) : Result :=
  { action := some action }

/-- Failure with a message. -/
def fail (message : String) (exitCode : Int := 1) : Result :=
  { success := false, error := some message, exitCode }

/-- The plain text of the output. -/
def text (r : Result) : String :=
  r.output.plain

/-- The message of a result; an empty one counts as none. -/
def message? (r : Result) : Option String :=
  r.error.filter (· != "")

/-- What a result says in one text: the error if there is one and no output, else the output. -/
def summary (r : Result) : String :=
  match r.message? with
  | some e => if r.text = "" then e else r.text
  | none => r.text

/-! ## Several results as one -/

/-- The segments of outputs in a row, with a line feed after each output that does not end in one
and is followed by another. Empty outputs leave no trace. -/
def joinOutputs : List Result → List Segment
  | [] => []
  | r :: rest =>
    if r.text = "" then joinOutputs rest
    else
      let tail := joinOutputs rest
      if tail.isEmpty || Text.hasEnd "\n" r.text then r.output.parts ++ tail
      else r.output.parts ++ { text := "\n" } :: tail

/-- Output that is plain text if no segment of it has a style. -/
def outputOf (parts : List Segment) : Output :=
  if parts.all (·.style == "normal") then .text (Output.segments parts).plain else .segments parts

/-- The result of commands that ran one after another: their outputs and messages in order, the
latest request, and the success and exit code of the last one. -/
def combine (first : Result) (rest : List Result) : Result :=
  let all := first :: rest
  let last := all.getLast (List.cons_ne_nil first rest)
  let errors := all.filterMap message?
  { success := last.success
    output := outputOf (joinOutputs all)
    error := if errors.isEmpty then none else some (Text.joinWith "\n" errors)
    exitCode := last.exitCode
    action := all.reverse.findSome? Result.action }

end Result

end VirtualShell
