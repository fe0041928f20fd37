import KhulnasoftLsp.Rpc

/-!
# The messages between a plugin and a webview

A request of a plugin goes from its `WebviewInstanceMessageBus` over the runtime bus to the mediator
of a transport, from there to a socket, and at the other end to the `SocketIoMessageBus` of the
webview; a response goes the same way back, and requests of the webview the other way round. Each
hop writes a message of its own shape.

A value of JavaScript is an `Option` here, which is `none` where the value is `undefined`.
-/

namespace KhulnasoftLsp.Webview

open Rpc

structure WebviewAddress where
  webviewId : String
  webviewInstanceId : String
  deriving DecidableEq, Repr

/-- What code may throw: `null` or `undefined`, a value without a message, or an `Error`. -/
inductive Thrown where
  | nullish
  | other
  | error (message : String)
  deriving DecidableEq, Repr

/-- `(error as Error).message`; it is `none` where reading it throws. -/
def Thrown.message : Thrown → Option (Option String)
  | .nullish => none
  | .other => some none
  | .error message => some (some message)

/-- The payload of a message inside the process. -/
inductive Payload (α : Type) where
  | plain (value : Option α)
  | promise
  deriving DecidableEq, Repr

/-- What a socket makes of values, which it sends as JSON. -/
structure Serialization (α : Type) where
  value : α → Option α
  promise : Option α

variable {α : Type}

def Serialization.wire (ser : Serialization α) : Payload α → Option α
  | .plain none => none
  | .plain (some v) => ser.value v
  | .promise => ser.promise

/-! ## The shapes -/

/-- `WebviewRuntimeRequestMessage` -/
structure RuntimeRequest (π : Type) extends WebviewAddress where
  requestId : String
  type : String
  payload : π
  deriving DecidableEq, Repr

/-- `WebviewRuntimeResponseMessage` -/
structure RuntimeResponse (π : Type) extends WebviewAddress where
  requestId : String
  type : Option String
  success : Option Bool
  payload : π
  reason : Option String
  deriving DecidableEq, Repr

/-- A message as it comes out of a socket, with the fields that any of the receivers reads. -/
structure SocketMessage (α : Type) where
  requestId : Option String := none
  type : Option String := none
  event : Option String := none
  payload : Option α := none
  success : Option Bool := none
  reason : Option String := none
  deriving DecidableEq, Repr

/-! ## The bus of the plugin -/

namespace WebviewInstanceMessageBus

/-- What `sendRequest` publishes as `plugin:request`. -/
def request (address : WebviewAddress) (requestId type : String) (payload : Option α) :
    RuntimeRequest (Payload α) :=
  { address with requestId, type, payload := .plain payload }

/-- What a handler of `onRequest` publishes as `plugin:response`, when it returns or throws. It
publishes nothing if what was thrown has no `message` to be read. -/
def response (address : WebviewAddress) (requestId type : String) :
    Returned (Option α) Thrown → Option (RuntimeResponse (Payload α))
  | .value v => some { address with
      requestId, type := some type, success := some true, payload := .plain v, reason := none }
  | .promise => some { address with
      requestId, type := some type, success := some true, payload := .promise, reason := none }
  | .threw e => e.message.map fun reason => { address with
      requestId, type := some type, success := some false, payload := .plain none, reason }

/-- What the pending handler of a request does with the response. -/
def settle (message : RuntimeResponse (Option α)) : Outcome (Option α) Thrown :=
  if message.success = some true then .resolved message.payload
  else .rejected (.error (message.reason.getD ""))

/-- `buildWebviewAddressFilter` -/
def eventFilter (address event : WebviewAddress) : Bool :=
  event.webviewId == address.webviewId && event.webviewInstanceId == address.webviewInstanceId

end WebviewInstanceMessageBus

/-! ## The transport -/

def buildConnectionId (info : WebviewAddress) : String :=
  info.webviewId ++ ":" ++ info.webviewInstanceId

namespace SocketIOWebViewTransport

variable (ser : Serialization α) (connections : List String)

/-- `publish` of a `webview_instance_request` -/
def publishRequest (message : RuntimeRequest (Payload α)) : Option (SocketMessage α) :=
  if buildConnectionId message.toWebviewAddress ∈ connections then
    some {
      type := some message.type
      payload := ser.wire message.payload
      requestId := some message.requestId }
  else none

/-- `publish` of a `webview_instance_response` -/
def publishResponse (message : RuntimeResponse (Payload α)) : Option (SocketMessage α) :=
  if buildConnectionId message.toWebviewAddress ∈ connections then
    some {
      type := message.type
      payload := ser.wire message.payload
      requestId := some message.requestId }
  else none

/-- What becomes of a message on the channel `request`, if it passes `isSocketRequestMessage`. -/
def requestReceived (webviewInstanceInfo : WebviewAddress) (message : SocketMessage α) :
    Option (RuntimeRequest (Option α)) := do
  let requestId ← message.requestId
  let type ← message.type
  return { webviewInstanceInfo with type, payload := message.payload, requestId }

/-- What becomes of a message on the channel `response`, if it passes `isSocketResponseMessage`. -/
def responseReceived (webviewInstanceInfo : WebviewAddress) (message : SocketMessage α) :
    Option (RuntimeResponse (Option α)) := do
  let requestId ← message.requestId
  return { webviewInstanceInfo with
    type := message.type
    payload := message.payload
    requestId
    success := message.success
    reason := some (message.reason.getD "") }

end SocketIOWebViewTransport

/-! ## The bus of the webview -/

namespace SocketIoMessageBus

/-- What `sendRequest` emits. -/
def request (ser : Serialization α) (requestId type : String) (payload : Option α) :
    SocketMessage α where
  requestId := some requestId
  type := some type
  payload := ser.wire (.plain payload)

/-- The key and the argument of `handle` in `#handleRequestMessage`. No handler is registered under
`undefined`. -/
def handleRequestMessage (message : SocketMessage α) : Option (String × Option α) :=
  message.event.map fun event => (event, message.payload)

/-- What `#handleRequestMessage` emits when the handler has resolved. -/
def response (ser : Serialization α) (message : SocketMessage α) (value : Option α) :
    SocketMessage α where
  requestId := message.requestId
  payload := ser.wire (.plain value)

/-- The key and the argument of `handle` in `#handleResponseMessage`. -/
def handleResponseMessage (message : SocketMessage α) : Option (String × Option α) :=
  message.requestId.map fun requestId => (requestId, message.payload)

end SocketIoMessageBus

/-! ## A connected webview -/

/-- A webview whose socket is connected and whose address is managed by the mediator of its
transport. -/
structure ConnectedWebview where
  address : WebviewAddress
  managedInstances : List String
  connections : List String
  isManaged : address.webviewInstanceId ∈ managedInstances
  isConnected : buildConnectionId address ∈ connections

namespace ConnectedWebview

variable (w : ConnectedWebview) (ser : Serialization α)

/-- `#onPluginRequest` of the mediator, behind its filter -/
def onPluginRequest (message : RuntimeRequest (Payload α)) : Option (SocketMessage α) :=
  if message.webviewInstanceId ∈ w.managedInstances then
    SocketIOWebViewTransport.publishRequest ser w.connections message
  else none

/-- `#onPluginResponse` of the mediator, behind its filter -/
def onPluginResponse (message : RuntimeResponse (Payload α)) : Option (SocketMessage α) :=
  if message.webviewInstanceId ∈ w.managedInstances then
    SocketIOWebViewTransport.publishResponse ser w.connections message
  else none

/-- The request of the plugin as it comes out of the socket. -/
def pluginRequest (r : Request String String (Option α)) : Option (SocketMessage α) :=
  w.onPluginRequest ser (WebviewInstanceMessageBus.request w.address r.id r.key r.value)

/-- The request of the webview as it comes to the bus of the plugin. -/
def webviewRequest (r : Request String String (Option α)) : Option (RuntimeRequest (Option α)) :=
  (SocketIOWebViewTransport.requestReceived w.address
    (SocketIoMessageBus.request ser r.id r.key r.value)).filter fun message =>
      WebviewInstanceMessageBus.eventFilter w.address message.toWebviewAddress

/-- The response of the plugin as it comes out of the socket, when the handler returns. -/
def pluginResponse (r : Request String String (Option α)) (x : Returned (Option α) Thrown) :
    Option (SocketMessage α) := do
  let message ← w.webviewRequest ser r
  let response ← WebviewInstanceMessageBus.response w.address message.requestId message.type x
  w.onPluginResponse ser response

theorem pluginRequest_eq (r : Request String String (Option α)) :
    w.pluginRequest ser r = some {
      type := some r.key
      payload := ser.wire (.plain r.value)
      requestId := some r.id } := by
  simp [pluginRequest, onPluginRequest, WebviewInstanceMessageBus.request,
    SocketIOWebViewTransport.publishRequest, w.isManaged, w.isConnected]

theorem webviewRequest_eq (r : Request String String (Option α)) :
    w.webviewRequest ser r = some { w.address with
      requestId := r.id
      type := r.key
      payload := ser.wire (.plain r.value) } := by
  simp [webviewRequest, SocketIoMessageBus.request, SocketIOWebViewTransport.requestReceived,
    WebviewInstanceMessageBus.eventFilter]

/-- The payload that is left of what the handler did. -/
def arrival : Returned (Option α) Thrown → Option (Option α)
  | .value v => some (ser.wire (.plain v))
  | .promise => some ser.promise
  | .threw e => e.message.map fun _ => none

theorem pluginResponse_eq (r : Request String String (Option α))
    (x : Returned (Option α) Thrown) :
    w.pluginResponse ser r x = (arrival ser x).map fun payload =>
      { type := some r.key, payload, requestId := some r.id } := by
  have hmanaged := w.isManaged
  have hconnected := w.isConnected
  unfold pluginResponse
  rw [webviewRequest_eq]
  cases x with
  | value v =>
      simp [WebviewInstanceMessageBus.response, onPluginResponse,
        SocketIOWebViewTransport.publishResponse, arrival, hmanaged, hconnected]
  | promise =>
      simp [WebviewInstanceMessageBus.response, onPluginResponse, Serialization.wire,
        SocketIOWebViewTransport.publishResponse, arrival, hmanaged, hconnected]
  | threw e =>
      cases e <;> simp [WebviewInstanceMessageBus.response, onPluginResponse, Thrown.message,
        SocketIOWebViewTransport.publishResponse, arrival, Serialization.wire, hmanaged,
        hconnected]

end ConnectedWebview
end KhulnasoftLsp.Webview
