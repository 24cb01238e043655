import Cartridge.Config.Packaged
import Cartridge.DisplayList
import Cartridge.Image.Messages

/-!
# The command line

The program reads its arguments into a request and answers it from the files that
it is given. An answer is what to print, what to write and whether all went well;
whoever runs the program carries it out.
-/
namespace Cartridge.CommandLine

inductive Task
  | info
  | files
  | displayLists (file : String)
  | messages (language : String)
  | message (language id : String)
  | unknown
deriving DecidableEq

inductive Request
  | usage
  | decompress (input output : String)
  | explore (image : String) (directories : List String) (task : Task)
deriving DecidableEq

/-- The task with a name and parameters. -/
def Task.ofArguments : String → List String → Task
  | "info", _ => info
  | "files", _ => files
  | "dlists", [file] => displayLists file
  | "messages", [language] => messages language
  | "message", [language, id] => message language id
  | _, _ => unknown

namespace Request

/-- Takes the directories of configurations off the front of the arguments. -/
def splitDirectories : List String → List String × List String
  | "--config" :: directory :: rest =>
    let (directories, rest) := splitDirectories rest
    (directory :: directories, rest)
  | rest => ([], rest)

def ofArguments : List String → Request
  | [] | [_] => usage
  | "yaz0" :: input :: output :: _ => decompress input output
  | "yaz0" :: _ => usage
  | image :: rest =>
    match splitDirectories rest with
    | (_, []) => usage
    | (directories, name :: parameters) =>
      explore image directories (.ofArguments name parameters)

end Request

def usage : String :=
  String.join <| [
    "zelda64 - Ocarina of Time and Majora's Mask ROM explorer",
    "",
    "Usage: zelda64 <rom.z64> [--config <dir>] <command> [args]",
    "       zelda64 yaz0 <compressed> <output>",
    "",
    "Commands:",
    "  info                   build, header and file count",
    "  files                  file table with names",
    "  dlists <file>          display lists in a file (name or 0x address)",
    "  messages <lang>        every message of a language (jp, en, de, fr, es)",
    "  message <lang> <id>    one message, id in hex",
    "",
    "Configuration files are searched in --config directories first,",
    "then in the packaged config/ directory."].map (· ++ "\n")

inductive Failure
  | fileNotFound (path : String)
  | badAddress (text : String)
  | badMessageId (text : String)
  | unknownLanguage (code : String)
  | compressed (cause : Yaz0.Error)
  | image (cause : Cartridge.Error)
deriving DecidableEq

def Failure.render : Failure → String
  | fileNotFound path => "File not found: " ++ path
  | badAddress text => Quoted.render ("Invalid hex value: " ++ text)
  | badMessageId text => Quoted.render ("Invalid message id: " ++ text)
  | unknownLanguage code => Quoted.render ("Unknown language: " ++ code)
  | compressed cause => cause.labelled.render
  | image cause => cause.labelled.render

/-- What the program prints and writes, and its exit code. -/
structure Outcome where
  code : Nat := 0
  stdout : String := ""
  stderr : String := ""
  written : List (String × Bytes) := []

/-- The outcome of a request that succeeds or fails as a whole. -/
def Outcome.ofResult : Except Failure Outcome → Outcome
  | .ok outcome => outcome
  | .error failure => { code := 1, stderr := "Error: " ++ failure.render ++ "\n" }

/-- Removes the marks of hexadecimal from the front of a numeral. -/
def dropMarks : List Char → List Char
  | '0' :: 'x' :: rest => dropMarks rest
  | digits => digits

/-- The number below `limit` that a hexadecimal numeral spells. -/
def readHex? (limit : Nat) (text : String) : Option Nat :=
  Numeral.readBelow? 16 limit (dropMarks text.toList)

def readLanguage (code : String) : Except Failure Language :=
  match Language.ofCode? code with
  | some language => .ok language
  | none => .error (.unknownLanguage code)

/-- Line ends in one line. -/
def oneLine (text : String) : String :=
  String.ofList (text.toList.flatMap fun c => if c = '\n' then ['\\', 'n'] else [c])

/-- Runs an access on an image that nothing has been read from. -/
def fresh (access : Image.Access α) : Except Failure α :=
  (access.run .empty).1.mapError .image

/-- The display lists of a file, which is named or given by its address. -/
def showDisplayLists (image : Image) (file : String) : Except Failure Outcome := do
  let content ←
    if file.startsWith "0x" then
      match readHex? (2 ^ 32) file with
      | some address => fresh (image.decompressedAt address)
      | none => .error (.badAddress file)
    else fresh (image.decompressedNamed file)
  .ok { stdout := DisplayList.renderAll (DisplayList.ofBytes content.bytes) }

/-- Messages and errors of messages, one a line. -/
def messageLines (image : Image) (index : Message.Index) (language : Language)
    (caches : Image.Caches) : List Nat → Outcome
  | [] => {}
  | id :: rest =>
    let (result, caches) := (image.message index language id).run caches
    let outcome := messageLines image index language caches rest
    let line (text : String) := Numeral.upperHex 4 id ++ ": " ++ text ++ "\n"
    match result with
    | .ok message =>
      { outcome with stdout := line (oneLine message.plainText) ++ outcome.stdout }
    | .error e => { outcome with stderr := line e.message ++ outcome.stderr }

def showMessages (image : Image) (code : String) : Except Failure Outcome := do
  let language ← readLanguage code
  let (result, caches) := image.messageIndex.run .empty
  let index ← result.mapError .image
  let ids := ((index.get? language).map Catalog.keys).getD []
  .ok (messageLines image index language caches ids)

/-- The boxes of a message from a number on, with the markup of their lines. -/
def boxLines (number : Nat) : List Message.TextBox → List String
  | [] => []
  | box :: rest =>
    ("--- box " ++ toString number ++ " ---") :: box.map Message.Fragment.markupAll
      ++ boxLines (number + 1) rest

def showMessage (image : Image) (code id : String) : Except Failure Outcome := do
  let language ← readLanguage code
  match readHex? (2 ^ 16) id with
  | none => .error (.badMessageId id)
  | some id =>
    let message ← fresh do
      let index ← image.messageIndex
      image.message index language id
    let settings := message.settings.toList.map (·.labelled.render)
    .ok { stdout := String.join ((settings ++ boxLines 0 message.boxes).map (· ++ "\n")) }

def perform (image : Image) : Task → Except Failure Outcome
  | .info => .ok { stdout := image.render ++ "\n" }
  | .files => .ok { stdout := Image.FileRecord.renderAll image.files }
  | .displayLists file => showDisplayLists image file
  | .messages language => showMessages image language
  | .message language id => showMessage image language id
  | .unknown => .ok { stdout := usage }

def readFile (files : String → Option Bytes) (path : String) : Except Failure Bytes :=
  match files path with
  | some bytes => .ok bytes
  | none => .error (.fileNotFound path)

def answer (files : String → Option Bytes) : Request → Except Failure Outcome
  | .usage => .ok { stdout := usage }
  | .decompress input output => do
    let content ← (Yaz0.decompress (← readFile files input)).mapError .compressed
    .ok { written := [(output, content)] }
  | .explore path directories task => do
    let dump ← readFile files path
    let image ← (Image.load dump (Config.ofFiles? files directories)).mapError .image
    perform image task

def run (files : String → Option Bytes) (arguments : List String) : Outcome :=
  .ofResult (answer files (.ofArguments arguments))

/-- The paths of all files that a request may read. -/
def Request.paths : Request → List String
  | usage => []
  | decompress input _ => [input]
  | explore image directories _ =>
    image :: Release.known.flatMap (Config.paths directories)

end Cartridge.CommandLine
