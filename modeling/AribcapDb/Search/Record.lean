import AribcapDb.Archive.Naming

/-! # Records read by the search indexer

What the indexer takes from a present EIT and from a caption, and what one line of an archive
file is to it (`lineRecord`). -/

namespace AribcapDb

structure Genre where
  contentNibbleLevel1 : Int64
  contentNibbleLevel2 : Int64
  userNibble1 : Int64
  userNibble2 : Int64
  deriving DecidableEq, Repr

structure EitPresent where
  startTime : Option String
  durationSec : Option Int64
  title : String
  description : String
  version : Option Int64
  serviceId : Option Int64
  transportStreamId : Option Int64
  originalNetworkId : Option Int64
  eventId : Option Int64
  genres : List Genre
  deriving DecidableEq, Repr

structure CaptionRecord where
  time : Option String
  text : String
  color : Option String
  pid : Option Int64
  captionType : Option String
  languageCode : Option String
  durationMs : Option Int64
  clearScreen : Option Bool
  deriving DecidableEq, Repr

/-- One entry of `genres_from_eit`. -/
def genreFromValue (genre : Value) : Option Genre := do
  let contentNibbleLevel1 ← genre.i64Field "contentNibbleLevel1"
  let contentNibbleLevel2 ← genre.i64Field "contentNibbleLevel2"
  some
    { contentNibbleLevel1, contentNibbleLevel2
      userNibble1 := (genre.i64Field "userNibble1").getD 15
      userNibble2 := (genre.i64Field "userNibble2").getD 15 }

def genresFromEit (value : Value) : List Genre :=
  ((value.get "genres" >>= Value.asArray).getD []).filterMap genreFromValue

/-- `text_field`. -/
def textField (event : Value) : Option String := trimmedField event "text"

def descriptionFromEit (value : Value) : String :=
  let shortText := do
    let shortEvents ← value.get "shortEvents" >>= Value.asArray
    ((shortEvents.find? fun event => event.strField "languageCode" = some "jpn") >>=
        textField).orElse
      fun _ => shortEvents.findSome? textField
  let extendedText := trimmedField value "extendedText"
  match shortText, extendedText with
  | some short, some extended =>
      if short ≠ extended then short ++ "\n" ++ extended else short
  | some short, none => short
  | none, some extended => extended
  | none, none => ""

/-- `eit_present_from_value`. -/
def eitPresentFromValue (value : Value) : Option EitPresent := do
  let type ← value.strField "type"
  if type ≠ "eit" then none
  else
    let sect ← value.strField "section"
    if sect ≠ "present" then none
    else
      some
        { startTime := value.strField "startTime"
          durationSec := value.i64Field "durationSec"
          title := (eventNameFromEit value).getD ""
          description := descriptionFromEit value
          version := value.i64Field "version"
          serviceId := value.i64Field "serviceId"
          transportStreamId := value.i64Field "transportStreamId"
          originalNetworkId := value.i64Field "originalNetworkId"
          eventId := value.i64Field "eventId"
          genres := genresFromEit value }

/-- `caption_from_value`. -/
def captionFromValue (value : Value) : Option CaptionRecord := do
  let type ← value.strField "type"
  if type ≠ "caption" then none
  else
    some
      { time := value.strField "time"
        text := (value.strField "text").getD ""
        color := value.strField "color"
        pid := value.i64Field "pid"
        captionType := value.strField "captionType"
        languageCode := value.strField "languageCode"
        durationMs := value.i64Field "durationMs"
        clearScreen := value.boolField "clearScreen" }

/-- What one line is to the indexer. -/
inductive LineRecord where
  | skipped
  | eit (eit : EitPresent)
  | caption (caption : CaptionRecord)
  deriving DecidableEq, Repr

/-- The text of a line that the indexer parses. -/
def lineText (line : List UInt8) : String := trimEndCr (fromUtf8Lossy line)

/-- What the indexer reads in one line, given without its newline. -/
def lineRecord (serde : SerdeJson) (line : List UInt8) : LineRecord :=
  match serde.fromStr (lineText line) with
  | none => .skipped
  | some value =>
      match eitPresentFromValue value with
      | some eit => .eit eit
      | none =>
          match captionFromValue value with
          | some caption => .caption caption
          | none => .skipped

end AribcapDb
