import KhulnasoftLsp.JsString

/-!
# The server-sent events of a suggestion stream

What the event parser hands to `onEvent`, and the schema against which the handler checks it. An
object schema ignores the keys it does not name; an optional key may be absent but not `null`,
except for `data`, which may be both.
-/

namespace KhulnasoftLsp.Streaming

/-- What `JSON.parse` returns. No key of an object occurs twice. -/
inductive Json where
  | null
  | bool (b : Bool)
  | num (literal : String)
  | str (s : JsString)
  | arr (elements : List Json)
  | obj (fields : List (String × Json))

/-- An event as the event parser delivers it: its name, if it has one, and what `JSON.parse`
returns on its data (`none` when `JSON.parse` throws). -/
structure EventSourceMessage where
  event : Option String
  data : Option Json

structure ICodeSuggestionModel where
  engine : JsString
  name : JsString
  deriving DecidableEq, Repr

/-- `ChoiceSchema`: `{ delta: { content }, index }` -/
structure Choice where
  content : JsString
  index : String

/-- `SSEEventDataSchema`; of the metadata only the model is read. -/
structure SSEEventData where
  model : Option ICodeSuggestionModel
  choices : Option (List Choice)

inductive SSEEventName where
  | streamStart
  | contentChunk
  | streamEnd
  deriving DecidableEq, Repr

/-- `SSEEventSchema`; `data` is `none` for `null`. -/
structure SSEEvent where
  event : SSEEventName
  data : Option SSEEventData

namespace Json

/-- The value of a required key. -/
def field (key : String) : Json → Option Json
  | obj fields => fields.lookup key
  | _ => none

/-- `z.string()` -/
def string : Json → Option JsString
  | str s => some s
  | _ => none

/-- `z.number()` -/
def number : Json → Option String
  | num literal => some literal
  | _ => none

/-- `schema.optional()` on the value of a key: absent is fine, present must pass. -/
def optional {α : Type} (schema : Json → Option α) : Option Json → Option (Option α)
  | none => some none
  | some j => (schema j).map some

/-- An optional key of an object. -/
def optionalField {α : Type} (key : String) (schema : Json → Option α) :
    Json → Option (Option α)
  | obj fields => optional schema (fields.lookup key)
  | _ => none

/-- `z.array(schema)` -/
def array {α : Type} (schema : Json → Option α) : Json → Option (List α)
  | arr elements => elements.mapM schema
  | _ => none

end Json

def modelSchema (j : Json) : Option ICodeSuggestionModel := do
  let engine ← (← j.field "engine").string
  let name ← (← j.field "name").string
  return { engine, name }

/-- The schema of `metadata`; its result is the model. -/
def metadataSchema (j : Json) : Option (Option ICodeSuggestionModel) := do
  let model ← j.optionalField "model" modelSchema
  let _ ← j.optionalField "timestamp" Json.number
  return model

def choiceSchema (j : Json) : Option Choice := do
  let content ← (← (← j.field "delta").field "content").string
  let index ← (← j.field "index").number
  return { content, index }

def sseEventDataSchema (j : Json) : Option SSEEventData := do
  let metadata ← j.optionalField "metadata" metadataSchema
  let choices ← j.optionalField "choices" (Json.array choiceSchema)
  return { model := metadata.join, choices }

/-- `z.enum(['stream_start', 'content_chunk', 'stream_end'])` -/
def eventNameSchema : Option String → Option SSEEventName
  | some "stream_start" => some .streamStart
  | some "content_chunk" => some .contentChunk
  | some "stream_end" => some .streamEnd
  | _ => none

/-- `SSEEventSchema.safeParse({ event, data })` -/
def safeParse (event : Option String) (data : Json) : Option SSEEvent := do
  let name ← eventNameSchema event
  match data with
  | .null => return { event := name, data := none }
  | j => return { event := name, data := some (← sseEventDataSchema j) }

/-! ## The events of a well-formed stream -/

/-- The text `x`. -/
def sampleText : JsString := [0x78]

/-- The event that starts a stream. -/
def streamStartMessage : EventSourceMessage := ⟨some "stream_start", some (.obj [])⟩

/-- The event that carries one chunk of the completion. -/
def contentChunkMessage (chunk : JsString) : EventSourceMessage :=
  ⟨some "content_chunk", some (.obj [("choices", .arr [.obj
    [("delta", .obj [("content", .str chunk)]), ("index", .num "0")]])])⟩

/-- The event that ends a stream. -/
def streamEndMessage : EventSourceMessage := ⟨some "stream_end", some (.obj [])⟩

end KhulnasoftLsp.Streaming
