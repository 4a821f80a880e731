import StoreBench.Json.Reader
import StoreBench.Settings.Outline

/-!
# `StoreBench.Settings.Format`: the formats of files

What a file holds depends on its format, and its format on the ending of
its name. Which formats there are, and how each is read, is not for the
settings to say: a format is any endings with any reader of documents, and
the settings are found, read and layered in the same way whatever the
formats are.

`FileFormat.usual` has all endings that are looked for, with a reader of
documents and one of outlines. Of the other formats it knows the endings
only, so their files are found, and refused instead of overlooked.
-/

set_option autoImplicit false

namespace StoreBench

/-- A format of files: the endings of their names, and the document in a
text, or why there is none. -/
structure FileFormat where
  endings : List String
  parse : String → Except String Json

namespace FileFormat

/-- Files that hold one object. -/
def json : FileFormat where
  endings := ["json"]
  parse text := (Json.parse text).mapError Json.ReadError.message

/-- Files of lines, of which each gives a value to a name. -/
def outline : FileFormat where
  endings := ["yaml", "yml"]
  parse text := (Outline.parse text).mapError Outline.Flaw.message

/-- A format without a reader. -/
def closed (ending : String) : FileFormat where
  endings := [ending]
  parse _ := .error s!"there is no reader of `.{ending}`"

/-- The formats that files usually have. -/
def usual : List FileFormat :=
  [closed "toml", json, outline, closed "ini", closed "ron", closed "json5"]

/-- The format of files with this ending. -/
def ofEnding? (formats : List FileFormat) (ending : String) : Option FileFormat :=
  formats.find? fun f => f.endings.contains ending

end FileFormat

end StoreBench
