import SearchPolling.Json.Lexeme

/-!
# The nodes of a JSON text

Lexemes nest into nodes.  A node records what stands in the text, well formed or
not: a list or an object ends with a `Tail` that says how, and where a fault
stands, the rest of the text is left unread.  Reading a node from left to right
therefore meets the first fault of the text at the place where it stands.

Nesting is one pass over the lexemes (`Reader.step`) with the enclosing lists and
objects kept as a list of frames.
-/

namespace SearchPolling
namespace Json

/-- How a list or an object ends. -/
inductive Tail where
  /-- With its closing bracket. -/
  | closed
  /-- With the end of the text, behind the opening bracket, an item or a member. -/
  | cutOff
  /-- With its closing bracket right behind a comma. -/
  | commaClosed
  /-- With the end of the text right behind a comma. -/
  | commaCutOff
  /-- At a lexeme behind an item or a member that neither separates nor closes. -/
  | unseparated
  /-- At a lexeme where a key should stand. -/
  | keyless (lexeme : Lexeme)
  /-- At a key that is no well-formed string literal. -/
  | brokenKey (token : StringToken)
  /-- Behind a key, at a lexeme that is no colon or at the end of the text. -/
  | noColon (key : StringToken) (next : Option Lexeme)
  /-- Inside its last item or member. -/
  | unread
  deriving DecidableEq, Repr

/-- What stands in a text where a value should. -/
inductive Node where
  /-- The end of the text. -/
  | absent
  /-- A lexeme that is no opening bracket. -/
  | leaf (lexeme : Lexeme)
  | list (items : List Node) (tail : Tail)
  | object (members : List (StringToken × Node)) (tail : Tail)

instance : Inhabited Node := ⟨.absent⟩

/-- A whole text: its value, and whether more follows it. -/
structure Document where
  root : Node
  followed : Bool

/-- A list or an object that is being read, up to the value in hand: the items or
members before it, the last of them first. -/
inductive Frame where
  | item (before : List Node)
  | member (before : List (StringToken × Node)) (key : StringToken)

/-- The state between two lexemes. -/
inductive Reader where
  /-- A value has to follow. -/
  | value (frames : List Frame)
  /-- A list has been opened. -/
  | listOpened (frames : List Frame)
  /-- An item has been read. -/
  | itemRead (items : List Node) (frames : List Frame)
  /-- A comma between items has been read. -/
  | itemComma (items : List Node) (frames : List Frame)
  /-- An object has been opened. -/
  | objectOpened (frames : List Frame)
  /-- A member has been read. -/
  | memberRead (members : List (StringToken × Node)) (frames : List Frame)
  /-- A comma between members has been read. -/
  | memberComma (members : List (StringToken × Node)) (frames : List Frame)
  /-- A key has been read. -/
  | keyRead (members : List (StringToken × Node)) (key : StringToken) (frames : List Frame)
  /-- The value of the text has been read. -/
  | complete (root : Node)
  /-- More follows the value of the text, or a fault has been met. -/
  | stopped (document : Document)

namespace Reader

/-- Ends a well-formed value in its place. -/
def plug (v : Node) : List Frame → Reader
  | [] => .complete v
  | .item before :: frames => .itemRead (v :: before) frames
  | .member before key :: frames => .memberRead ((key, v) :: before) frames

/-- Ends the text at a node that holds a fault. -/
def abandon (v : Node) : List Frame → Node
  | [] => v
  | .item before :: frames => abandon (.list (v :: before).reverse .unread) frames
  | .member before key :: frames =>
    abandon (.object ((key, v) :: before).reverse .unread) frames

/-- Stops at a node that holds a fault. -/
def stop (v : Node) (frames : List Frame) : Reader :=
  .stopped ⟨abandon v frames, false⟩

/-- Begins a value. -/
def begin (frames : List Frame) : Lexeme → Reader
  | .openList => .listOpened frames
  | .openObject => .objectOpened frames
  | .null => plug (.leaf .null) frames
  | .bool b => plug (.leaf (.bool b)) frames
  | .number n => plug (.leaf (.number n)) frames
  | .string token =>
    if token.ending = .closed then plug (.leaf (.string token)) frames
    else stop (.leaf (.string token)) frames
  | l => stop (.leaf l) frames

/-- Begins a member. -/
def key (members : List (StringToken × Node)) (frames : List Frame) : Lexeme → Reader
  | .string token =>
    if token.ending = .closed then .keyRead members token frames
    else stop (.object members.reverse (.brokenKey token)) frames
  | l => stop (.object members.reverse (.keyless l)) frames

/-- Takes in the next lexeme. -/
def step : Reader → Lexeme → Reader
  | .value frames, l => begin frames l
  | .listOpened frames, .closeList => plug (.list [] .closed) frames
  | .listOpened frames, l => begin (.item [] :: frames) l
  | .itemRead items frames, .comma => .itemComma items frames
  | .itemRead items frames, .closeList => plug (.list items.reverse .closed) frames
  | .itemRead items frames, _ => stop (.list items.reverse .unseparated) frames
  | .itemComma items frames, .closeList => stop (.list items.reverse .commaClosed) frames
  | .itemComma items frames, l => begin (.item items :: frames) l
  | .objectOpened frames, .closeObject => plug (.object [] .closed) frames
  | .objectOpened frames, l => key [] frames l
  | .memberRead members frames, .comma => .memberComma members frames
  | .memberRead members frames, .closeObject => plug (.object members.reverse .closed) frames
  | .memberRead members frames, _ => stop (.object members.reverse .unseparated) frames
  | .memberComma members frames, .closeObject =>
    stop (.object members.reverse .commaClosed) frames
  | .memberComma members frames, l => key members frames l
  | .keyRead members key frames, .colon => .value (.member members key :: frames)
  | .keyRead members key frames, l =>
    stop (.object members.reverse (.noColon key (some l))) frames
  | .complete root, _ => .stopped ⟨root, true⟩
  | .stopped document, _ => .stopped document

/-- Ends the text. -/
def finish : Reader → Document
  | .value frames => ⟨abandon .absent frames, false⟩
  | .listOpened frames => ⟨abandon (.list [] .cutOff) frames, false⟩
  | .itemRead items frames => ⟨abandon (.list items.reverse .cutOff) frames, false⟩
  | .itemComma items frames => ⟨abandon (.list items.reverse .commaCutOff) frames, false⟩
  | .objectOpened frames => ⟨abandon (.object [] .cutOff) frames, false⟩
  | .memberRead members frames => ⟨abandon (.object members.reverse .cutOff) frames, false⟩
  | .memberComma members frames =>
    ⟨abandon (.object members.reverse .commaCutOff) frames, false⟩
  | .keyRead members key frames =>
    ⟨abandon (.object members.reverse (.noColon key none)) frames, false⟩
  | .complete root => ⟨root, false⟩
  | .stopped document => document

end Reader

namespace Document

/-- Nests lexemes. -/
def ofLexemes (lexemes : List Lexeme) : Document :=
  (lexemes.foldl Reader.step (.value [])).finish

/-- Reads a text. -/
def ofGlyphs (text : List Text.Glyph) : Document :=
  ofLexemes (Lexeme.scan text)

/-- Reads a text of characters. -/
def ofString (text : String) : Document :=
  ofGlyphs (Text.Glyph.ofChars text.toList)

end Document
end Json
end SearchPolling
