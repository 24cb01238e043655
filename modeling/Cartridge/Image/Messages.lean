import Cartridge.Image.Access
import Cartridge.Message.Basic
import Cartridge.Message.Table

/-!
# Messages of an image

The configuration tells where the message tables of a release are and which file
has the texts of a language. A message begins at the address of its table entry
and must end before the address of the next one, or else in the file.
-/
namespace Cartridge.Image

/-- The game and region of a known release. -/
def gameRegion (image : Image) : Except Cartridge.Error (Game × Region) :=
  match image.release.game?, image.release.region? with
  | some game, some region => .ok (game, region)
  | _, _ => .error (.image .noConfiguration)

/-- The configuration, which must be there. -/
def requireConfig (image : Image) : Except Cartridge.Error Config.Tree :=
  match image.config with
  | some config => .ok config
  | none => .error (.image .noConfiguration)

/-- A value of the configuration under this key, which must be there. -/
def requireKey (key : String) (value : Option α) : Except Cartridge.Error α :=
  match value with
  | some value => .ok value
  | none => .error (.config (.missingKey key))

/-- The table files with their languages. -/
def languageFiles (files : Config.LanguageFiles) : List (Language × String) := [
  (.english, files.english),
  (.german, files.german),
  (.french, files.french),
  (.spanish, files.spanish)]

/-- Decompresses the files with these names. -/
def decompressAll (image : Image) :
    List (Language × String) → Access (List (Language × Bytes))
  | [] => return []
  | (language, name) :: rest => do
    let content ← image.decompressedNamed name
    return (language, content.bytes) :: (← image.decompressAll rest)

/-- Where the message tables of a game and region are. -/
def tableSource (image : Image) (game : Game) (region : Region) (place : Config.TablePlace) :
    Access Message.TableSource := do
  if game = .mm ∧ region = .eu then
    let files ← liftExcept (requireKey "messageTable.files" place.files)
    return .files (← image.decompressAll (languageFiles files))
  else
    let offset ← liftExcept (requireKey "messageTable.offset" place.offset)
    return .code (← image.decompressedNamed "code").bytes offset

/-- The message index of the release. -/
def messageIndex (image : Image) : Access Message.Index := do
  let (game, region) ← liftExcept image.gameRegion
  let config ← liftExcept image.requireConfig
  let place ← liftExcept (config.tablePlace.mapError Cartridge.Error.config)
  let source ← image.tableSource game region place
  liftExcept (Message.Index.ofSource (some game) (some region) source)

/-- Where a message that begins at `start` must end: at the next message, unless
that is not behind it in the file, or else at the end of the file. -/
def messageBound (start length : Nat) (next : Option Nat) : Nat :=
  match next with
  | some stop => if start < stop ∧ stop ≤ length then stop else length
  | none => length

/-- The encoding of a language in the release. -/
def encodingOf (image : Image) (language : Language) :
    Except Cartridge.Error Message.Encoding := do
  let (game, region) ← image.gameRegion
  match Message.Encoding.ofLanguage? game region language with
  | some encoding => .ok encoding
  | none =>
    .error (.text (.unsupported (language.code ++ " text on " ++ image.release.title)))

def textFile (image : Image) (language : Language) : Except Cartridge.Error String := do
  let config ← image.requireConfig
  requireKey ("messageData." ++ language.code)
    (config.string? ["messageData", language.code])

/-- Reads a message that begins at `start` and must end before the `next` one. -/
def readBounded (encoding : Message.Encoding) (bytes : Bytes) (start : Nat)
    (next : Option Nat) : Except Message.Error Message :=
  let stop := messageBound start bytes.length next
  if stop ≤ start then .error (.unexpectedEnd start)
  else Message.read encoding (bytes.take stop) start

/-- The message of a language with an id. -/
def message (image : Image) (index : Message.Index) (language : Language) (id : Nat) :
    Access Message := do
  match index.entry? language id with
  | none => throw (.text (.noMessage language.code id))
  | some entry =>
    let encoding ← liftExcept (image.encodingOf language)
    let name ← liftExcept (image.textFile language)
    let content ← image.decompressedNamed name
    let next := index.nextAddress? language id
    liftExcept ((readBounded encoding content.bytes entry.address next).mapError
      Cartridge.Error.text)

end Cartridge.Image
