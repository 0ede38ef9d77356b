import EchoLife.Lib.TextSearch

/-!
# The XML parser

`nxml_write` reads a chunk of text and calls back for each tag, attribute, attribute value, piece of
text and end tag. It searches the chunk for the next delimiter; what is left of a name when the
chunk ends is kept for the next one.

The callbacks are a list of events here. They get a pointer into the chunk or into the name cache,
and the length of what is meant.
-/

namespace EchoLife.Xml

open TextSearch

def isWhitespace (c : UInt8) : Bool := c == 32 || c == 9 || c == 13 || c == 10

def isDelimiter (c : UInt8) : Bool := isWhitespace c || c == 61 || c == 47 || c == 62

def isEndDelimiter (c : UInt8) : Bool := isWhitespace c || c == 62

def nxmlMaxNameSize : Nat := 128

inductive NxmlState
  | beginTag
  | tagName
  | endTagName
  | attrName
  | attrValueEquals
  | attrValueQuote
  | attrValue
  | finishTag
  deriving Repr, DecidableEq

structure Nxml where
  state : NxmlState
  namecache : List UInt8
  skipwhitespace : Bool
  deriving Repr, DecidableEq

inductive Event
  | tagBegin (tagName : List UInt8)
  | attributeBegin (attrName : List UInt8)
  | attributeValue (attrValue : List UInt8)
  | data (data : List UInt8)
  | tagEnd (tagName : List UInt8)
  deriving Repr, DecidableEq

def nxmlOpen : Nxml := ⟨.beginTag, [], true⟩

def nxmlAddNamecache (namecache data : List UInt8) : List UInt8 :=
  namecache ++ data.take (nxmlMaxNameSize - namecache.length)

def nxmlAddNocopy (namecache data : List UInt8) : List UInt8 × List UInt8 :=
  if namecache = [] then (data, [])
  else (nxmlAddNamecache namecache data, nxmlAddNamecache namecache data)

inductive Outcome
  | stop (events : List Event) (handle : Nxml)
  | go (events : List Event) (handle : Nxml) (data : List UInt8) (psiEnd : Bool)
  deriving Repr, DecidableEq

def next (events : List Event) (state : NxmlState) (namecache data : List UInt8)
    (psiEnd : Bool) : Outcome :=
  .go events ⟨state, namecache, state ≠ .attrValue⟩ data psiEnd

def nxmlBeginTag (h : Nxml) (data : List UInt8) : Outcome :=
  match data.dropWhile (· ≠ 60) with
  | [] => .stop [.data data] h
  | _ :: after =>
    let text := data.takeWhile (· ≠ 60)
    next (if text = [] then [] else [.data text]) .tagName [] after false

def nxmlFinishTag (h : Nxml) (data : List UInt8) : Outcome :=
  match data.dropWhile (· ≠ 62) with
  | [] => .stop [] h
  | _ :: after => next [] .beginTag h.namecache after false

def nxmlEndName (name namecache s : List UInt8) : Outcome :=
  next [.tagEnd name] .finishTag namecache s (name.isPrefixOf (ascii "psitree"))

def nxmlEndTagName (h : Nxml) (data : List UInt8) : Outcome :=
  match data.dropWhile (fun c => !isEndDelimiter c) with
  | [] =>
    .stop [] { h with namecache := nxmlAddNamecache h.namecache data, skipwhitespace := false }
  | s =>
    nxmlEndName (nxmlAddNocopy h.namecache (data.takeWhile fun c => !isEndDelimiter c)).1
      (nxmlAddNocopy h.namecache (data.takeWhile fun c => !isEndDelimiter c)).2 s

def nxmlStartName (state : NxmlState) (name s : List UInt8) : Outcome :=
  if state = .tagName then next [.tagBegin name] .attrName [] s false
  else next [.attributeBegin name] .attrValueEquals [] s false

def nxmlWholeName (h : Nxml) (data : List UInt8) : Outcome :=
  match data.dropWhile (fun c => !isDelimiter c) with
  | [] =>
    .stop [] { h with namecache := nxmlAddNamecache h.namecache data, skipwhitespace := false }
  | s =>
    nxmlStartName h.state
      (nxmlAddNocopy h.namecache (data.takeWhile fun c => !isDelimiter c)).1 s

def nxmlName (h : Nxml) (c : UInt8) (rest : List UInt8) : Outcome :=
  if c = 47 ∧ h.state = .tagName ∧ h.namecache = [] then
    next [] .endTagName h.namecache rest false
  else if c = 47 ∧ h.state = .attrName then
    next [.tagEnd h.namecache] .finishTag h.namecache rest false
  else if c = 62 then next [] .beginTag h.namecache rest false
  else nxmlWholeName h (c :: rest)

def nxmlAttrValue (h : Nxml) (data : List UInt8) : Outcome :=
  match data.dropWhile (· ≠ 34) with
  | [] => .stop [.attributeValue data] { h with skipwhitespace := false }
  | _ :: after => next [.attributeValue (data.takeWhile (· ≠ 34))] .attrName [] after false

def nxmlAttrValueEquals (h : Nxml) (c : UInt8) (rest : List UInt8) : Outcome :=
  if c = 62 then next [] .beginTag h.namecache rest false
  else if c = 61 then next [] .attrValueQuote h.namecache rest false
  else next [] .attrName h.namecache (c :: rest) false

def nxmlAttrValueQuote (h : Nxml) (c : UInt8) (rest : List UInt8) : Outcome :=
  next [] .attrValue h.namecache (if c = 34 then rest else c :: rest) false

def nxmlRound (h : Nxml) (c : UInt8) (rest : List UInt8) : Outcome :=
  if h.skipwhitespace ∧ isWhitespace c then .go [] h (rest.dropWhile isWhitespace) false
  else
    match h.state with
    | .beginTag => nxmlBeginTag h (c :: rest)
    | .finishTag => nxmlFinishTag h (c :: rest)
    | .endTagName => nxmlEndTagName h (c :: rest)
    | .tagName => nxmlName h c rest
    | .attrName => nxmlName h c rest
    | .attrValue => nxmlAttrValue h (c :: rest)
    | .attrValueEquals => nxmlAttrValueEquals h c rest
    | .attrValueQuote => nxmlAttrValueQuote h c rest

def nxmlLoop : (rounds : Nat) → Nxml → (data : List UInt8) → Option (List Event × Nxml)
  | _, h, [] => some ([], h)
  | 0, _, _ :: _ => none
  | rounds + 1, h, c :: rest =>
    match nxmlRound h c rest with
    | .stop events h => some (events, h)
    | .go events h data psiEnd =>
      if psiEnd then some (events, h)
      else (nxmlLoop rounds h data).map fun r => (events ++ r.1, r.2)

/-- `nxml_write` of a chunk without NUL bytes and with a NUL behind it: the callbacks, and the
parser's state. -/
def nxmlWrite (h : Nxml) (data : List UInt8) : List Event × Nxml :=
  (nxmlLoop (4 * data.length + 4) h data).getD ([], h)

end EchoLife.Xml
