import KhulnasoftLsp.Buffers

/-!
# Streaming a response

`streamResponse` yields the body of a response chunk by chunk, each as a string. The node and the
browser `Fetch` both decode a chunk without the `stream` option, so the decoder never remembers what
a chunk has left unfinished.
-/

namespace KhulnasoftLsp.Fetch

open JsString

/-- `TextDecoder` for UTF-8, with its options at their defaults. -/
structure TextDecoder where
  decoder : Utf8.Decoder
  bomSeen : Bool
  doNotFlush : Bool

namespace TextDecoder

def new : TextDecoder := ⟨Utf8.Decoder.init, false, false⟩

/-- `decoder.decode(chunk, { stream })` -/
def decode (decoder : TextDecoder) (chunk : List UInt8) (stream : Bool) :
    TextDecoder × JsString :=
  let start := if decoder.doNotFlush then decoder else new
  let read := start.decoder.feed chunk
  let text := if stream then read.2 else read.2 ++ read.1.flush
  ({ decoder := read.1, bomSeen := start.bomSeen || !text.isEmpty, doNotFlush := stream },
    ofChars (if start.bomSeen then text else Utf8.removeByteOrderMark text))

end TextDecoder

/-- `streamResponse` of the node `Fetch`, for a body of these chunks. `cancelled i` is
`isCancellationRequested` when chunk `i` has arrived. -/
def streamResponse (cancelled : Nat → Bool) : Option (List (List UInt8)) → List JsString
  | none => []
  | some body => readStream TextDecoder.new 0 body
where
  readStream (decoder : TextDecoder) (i : Nat) : List (List UInt8) → List JsString
    | [] => []
    | chunk :: stream =>
      if cancelled i then []
      else (decoder.decode chunk false).2 ::
        readStream (decoder.decode chunk false).1 (i + 1) stream

namespace Browser

/-- `streamResponse` of the browser `Fetch`. -/
def streamResponse (cancelled : Nat → Bool) : Option (List (List UInt8)) → List JsString
  | none => []
  | some body => read 0 body
where
  read (i : Nat) : List (List UInt8) → List JsString
    | [] => []
    | value :: rest =>
      if cancelled i then [] else (TextDecoder.new.decode value false).2 :: read (i + 1) rest

end Browser

/-- What `getStreamingCodeSuggestions` yields to the streaming handler. -/
structure StreamedChunk where
  chunk : JsString
  serverSentEvents : Bool
  deriving DecidableEq, Repr

def getStreamingCodeSuggestions (isSse : Bool) (streamed : List JsString) : List StreamedChunk :=
  streamed.map fun chunk => { chunk, serverSentEvents := isSse }

/-- All the text that the streaming handler receives. -/
def receivedText (isSse : Bool) (streamed : List JsString) : JsString :=
  (getStreamingCodeSuggestions isSse streamed).flatMap StreamedChunk.chunk

/-- A chunk holds characters as a whole, and does not start with a byte order mark. -/
def HoldsText (chunk : List UInt8) : Prop :=
  ∃ t, chunk = Utf8.encode t ∧ t.head? ≠ some Utf8.byteOrderMark

/-! ## The decoder forgets -/

theorem decode_of_flushed {decoder : TextDecoder} (h : decoder.doNotFlush = false)
    (chunk : List UInt8) :
    (decoder.decode chunk false).2 = decodeText chunk ∧
      (decoder.decode chunk false).1.doNotFlush = false := by
  rw [TextDecoder.decode, if_neg (by simp [h])]
  exact ⟨rfl, rfl⟩

theorem readStream_of_not_cancelled {cancelled : Nat → Bool} (hcancelled : ∀ i, cancelled i = false)
    {decoder : TextDecoder} (h : decoder.doNotFlush = false) (i : Nat)
    (body : List (List UInt8)) :
    streamResponse.readStream cancelled decoder i body = body.map decodeText := by
  induction body generalizing decoder i with
  | nil => rfl
  | cons chunk body ih =>
    obtain ⟨htext, hflushed⟩ := decode_of_flushed h chunk
    rw [streamResponse.readStream, if_neg (by simp [hcancelled i]), htext, ih hflushed]
    rfl

theorem streamResponse_of_not_cancelled {cancelled : Nat → Bool}
    (hcancelled : ∀ i, cancelled i = false) (body : List (List UInt8)) :
    streamResponse cancelled (some body) = body.map decodeText :=
  readStream_of_not_cancelled hcancelled rfl 0 body

theorem Browser.read_of_not_cancelled {cancelled : Nat → Bool}
    (hcancelled : ∀ i, cancelled i = false) (i : Nat) (body : List (List UInt8)) :
    streamResponse.read cancelled i body = body.map decodeText := by
  induction body generalizing i with
  | nil => rfl
  | cons chunk body ih =>
    rw [streamResponse.read, if_neg (by simp [hcancelled i]), ih, (decode_of_flushed rfl chunk).1]
    rfl

theorem Browser.streamResponse_of_not_cancelled {cancelled : Nat → Bool}
    (hcancelled : ∀ i, cancelled i = false) (body : List (List UInt8)) :
    streamResponse cancelled (some body) = body.map decodeText :=
  Browser.read_of_not_cancelled hcancelled 0 body

theorem receivedText_eq (isSse : Bool) (streamed : List JsString) :
    receivedText isSse streamed = streamed.flatten := by
  rw [receivedText, getStreamingCodeSuggestions, List.flatMap_map, ← List.flatMap_id']

/-! ## The text of all chunks -/

theorem flatten_map_decodeText_iff {chunks : List (List UInt8)} {text : String}
    (h : chunks.flatten = Utf8.encode text.toList) :
    (chunks.map decodeText).flatten = ofString text ↔ ∀ chunk ∈ chunks, HoldsText chunk := by
  have hchars : (chunks.map decodeText).flatten =
      ofChars (chunks.flatMap fun chunk => Utf8.removeByteOrderMark (Utf8.decode chunk)) := by
    rw [ofChars_flatMap, ← List.flatMap_def]
    rfl
  rw [hchars, ofString_eq, ofChars_injective.eq_iff]
  exact Utf8.flatMap_removeByteOrderMark_decode_iff h

/-- The two `Fetch`es, and with them the streaming handler, get the text of a response if each of
its chunks holds characters as a whole and does not start with a byte order mark, and only then. -/
theorem streamResponse_text_iff (cancelled : Nat → Bool) (hcancelled : ∀ i, cancelled i = false)
    (isSse : Bool) (text : String) (chunks : List (List UInt8))
    (h : chunks.flatten = Utf8.encode text.toList) :
    ((streamResponse cancelled (some chunks)).flatten = ofString text ↔
        ∀ chunk ∈ chunks, HoldsText chunk) ∧
      ((Browser.streamResponse cancelled (some chunks)).flatten = ofString text ↔
        ∀ chunk ∈ chunks, HoldsText chunk) ∧
      (receivedText isSse (streamResponse cancelled (some chunks)) = ofString text ↔
        ∀ chunk ∈ chunks, HoldsText chunk) ∧
      (receivedText isSse (Browser.streamResponse cancelled (some chunks)) = ofString text ↔
        ∀ chunk ∈ chunks, HoldsText chunk) := by
  have htext := flatten_map_decodeText_iff h
  rw [receivedText_eq, receivedText_eq, streamResponse_of_not_cancelled hcancelled,
    Browser.streamResponse_of_not_cancelled hcancelled]
  exact ⟨htext, htext, htext, htext⟩

theorem streamResponse_text_iff_two_chunks :
    (receivedText true (streamResponse (fun _ => false) (some [[0xc3, 0xa9], [0x21]])) =
        ofString "é!" ↔
      ∀ chunk ∈ [[0xc3, 0xa9], [0x21]], HoldsText chunk) :=
  (streamResponse_text_iff (fun _ => false) (fun _ => rfl) true "é!" [[0xc3, 0xa9], [0x21]]
    (by decide)).2.2.1

/-- A character that arrives in two parts becomes two replacement characters. -/
theorem streamResponse_cut_character :
    ¬ ∀ (cancelled : Nat → Bool), (∀ i, cancelled i = false) →
      ∀ (text : String) (chunks : List (List UInt8)), chunks.flatten = Utf8.encode text.toList →
        (streamResponse cancelled (some chunks)).flatten = ofString text ∧
          (Browser.streamResponse cancelled (some chunks)).flatten = ofString text := by
  intro h
  have hcut := (h (fun _ => false) (fun _ => rfl) "é" [[0xc3], [0xa9]] (by decide)).1
  exact absurd hcut (by decide)

end KhulnasoftLsp.Fetch
