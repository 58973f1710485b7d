import Parley.Text.Search

/-! # Routing text to channels

    A generation may think before it answers, between a start marker and an end marker.  The router
    takes the generated text chunk by chunk and sends it to the thinking channel or to the response
    channel.  As long as a marker may be under way it holds back as much text as the longer marker
    has bytes.  The line breaks that follow the end marker are dropped.
-/

namespace Parley

/-- Whether markers of thinking are honoured. -/
inductive ThinkingMode
  | disabled
  | enabled
  deriving DecidableEq, Repr, Inhabited

/-- Where the generated text is going. -/
inductive Phase
  /-- All text is response, and markers are plain text. -/
  | disabled
  /-- The text is response, and the start marker may come. -/
  | searchingForStart
  /-- The text is thinking, and the end marker may come. -/
  | inThinking
  /-- The text is response to its end. -/
  | inResponse
  deriving DecidableEq, Repr, Inhabited

/-- Text released to the two channels. -/
structure Routed where
  thinking : List Char := []
  response : List Char := []
  deriving DecidableEq, Repr, Inhabited

namespace Routed

/-- Whether nothing was released. -/
def isEmpty (routed : Routed) : Bool := routed.thinking.isEmpty && routed.response.isEmpty

/-- The releases of two steps, one behind the other. -/
def append (routed other : Routed) : Routed where
  thinking := routed.thinking ++ other.thinking
  response := routed.response ++ other.response

end Routed

/-- The state of the router: the phase, the text held back, the markers, how many bytes may be held
    back, and whether line breaks are dropped until other text comes. -/
structure Router where
  phase : Phase
  pending : List Char := []
  startMarker : Option (List Char)
  endMarker : Option (List Char)
  hold : Nat
  trimming : Bool := false
  deriving DecidableEq, Repr, Inhabited

namespace Router

/-- A marker that is not empty. -/
def marker? (marker : Option String) : Option (List Char) :=
  (marker.filter fun text => !text.isEmpty).map String.toList

/-- The phase at the start. -/
def firstPhase (mode : ThinkingMode) (startMarker : Option (List Char)) : Phase :=
  match mode, startMarker with
  | .disabled, _ => .disabled
  | .enabled, some _ => .searchingForStart
  | .enabled, none => .inResponse

/-- The number of bytes of a marker. -/
def markerLength (marker : Option (List Char)) : Nat := (marker.map Text.byteLength).getD 0

/-- The router at the start of a generation. -/
def new (mode : ThinkingMode) (startMarker endMarker : Option String) : Router :=
  let startMarker := marker? startMarker
  let endMarker := marker? endMarker
  let phase := firstPhase mode startMarker
  { phase, startMarker, endMarker
    hold :=
      if phase = .disabled then 0 else max (markerLength startMarker) (markerLength endMarker) }

/-- Whether the router is in the thinking phase. -/
def isThinking (router : Router) : Bool := router.phase == .inThinking

/-- Whether no thinking can come any more. -/
def isPastThinking (router : Router) : Bool :=
  router.phase == .disabled || router.phase == .inResponse

/-- Line breaks that are dropped behind the end marker. -/
def isLineBreak (c : Char) : Bool := c = '\n' || c = '\r'

/-- What of `text` reaches the response channel, and the router after it. -/
def respond (router : Router) (text : List Char) : Router × List Char :=
  if router.trimming then
    let trimmed := text.dropWhile isLineBreak
    ({ router with trimming := trimmed.isEmpty }, trimmed)
  else (router, text)

/-- The text is response to its end: nothing is held back. -/
def stepResponse (router : Router) (text : List Char) (thinking before : List Char) :
    Router × Routed :=
  let (router, response) := { router with pending := [] : Router }.respond text
  (router, { thinking, response := before ++ response })

/-- The text is thinking up to the end marker.  `before` was released as response earlier. -/
def stepThinking (router : Router) (text before : List Char) : Router × Routed :=
  match router.endMarker.bind fun marker => Text.splitAtFirst marker text with
  | none =>
    let (released, kept) := Text.splitLast router.hold text
    ({ router with phase := .inThinking, pending := kept },
      { thinking := released, response := before })
  | some (thinking, after) =>
    { router with phase := .inResponse, trimming := true : Router }.stepResponse after thinking
      before

/-- The text is response up to the start marker. -/
def stepSearching (router : Router) (text : List Char) : Router × Routed :=
  match router.startMarker.bind fun marker => Text.splitAtFirst marker text with
  | none =>
    let (released, kept) := Text.splitLast router.hold text
    let (router, response) := router.respond released
    ({ router with pending := kept }, { response })
  | some (before, after) =>
    let (router, response) := router.respond before
    router.stepThinking after response

/-- Takes the next chunk of generated text. -/
def step (router : Router) (chunk : List Char) : Router × Routed :=
  let text := router.pending ++ chunk
  match router.phase with
  | .disabled | .inResponse => router.stepResponse text [] []
  | .searchingForStart => router.stepSearching text
  | .inThinking => router.stepThinking text []

/-- Releases the text held back, at the end of the generation. -/
def finish (router : Router) : Routed :=
  if router.isThinking then { thinking := router.pending }
  else { response := (router.respond router.pending).2 }

end Router

end Parley
