import ReactNative.Foundation.Runs

/-! One object, which is used for one request after the other. The numbers of its native requests
arrive some time after `send`, and the events of native requests at any time, in order for each
request. -/
namespace ReactNative

inductive ReadyState where
  | unsent
  | opened
  | headersReceived
  | loading
  | done
  deriving DecidableEq

def ReadyState.beforeLoading : ReadyState → Bool
  | .unsent | .opened | .headersReceived => true
  | .loading | .done => false

inductive ResponseType where
  | empty
  | text
  | arraybuffer
  | blob
  | document
  | json
  deriving DecidableEq

def ResponseType.isText (type : ResponseType) : Bool := type = .empty ∨ type = .text

inductive RequestEvent where
  | readystatechange
  | progress
  | load
  | error
  | timeout
  | abort
  | loadend
  /-- The one of `upload`. -/
  | uploadProgress

structure Received (Value : Type) where
  request : ℕ
  value : Value

inductive Exposure where
  | opened
  | sent
  /-- An event, which a native request may have caused. -/
  | event (type : RequestEvent) (cause : Option ℕ)
  | read (requests : List ℕ)

inductive NativeRequest where
  | absent
  | requested
  | created
  | completed
  deriving DecidableEq

inductive NativeEvent (Headers Data : Type) where
  | didSendNetworkData
  | didReceiveNetworkResponse (status : ℕ) (headers : Option Headers) (responseURL : Option Data)
  | didReceiveNetworkData (response : Data)
  | didReceiveNetworkIncrementalData (responseText : Data)
  | didReceiveNetworkDataProgress
  | didCompleteNetworkResponse (error : Option Data) (timeOutError : Bool)

def NativeEvent.after {Headers Data : Type} : NativeEvent Headers Data → NativeRequest
  | .didCompleteNetworkResponse _ _ => .completed
  | _ => .created

/-- What a handler does: it reads, or it aborts, which dispatches events again. -/
inductive Reaction where
  | done
  | read (rest : Reaction)
  | abort (onReadyStateChange onEnd onLoadend rest : Reaction)

structure XMLHttpRequest (Headers Data : Type) where
  readyState : ReadyState := .unsent
  status : Option (Received ℕ) := none
  responseHeaders : Option (Received Headers) := none
  responseURL : Option (Received Data) := none
  requestId : Option ℕ := none
  cachedResponse : Option (List (Received Data)) := none
  hasError : Bool := false
  /-- The parts that have been put together. -/
  response : List (Received Data) := []
  responseType : ResponseType := .empty
  sent : Bool := false
  /-- The listeners for native events come and go together. -/
  subscribed : Bool := false
  timedOut : Bool := false
  aborted : Bool := false
  method : Option (List Char) := none
  url : Option (List Char) := none
  /-- How many times something has been sent. -/
  sends : ℕ := 0
  native : ℕ → NativeRequest := fun _ => .absent
  log : List Exposure := []

namespace XMLHttpRequest

variable {Headers Data : Type}

def expose (exposure : Exposure) (state : XMLHttpRequest Headers Data) :
    XMLHttpRequest Headers Data :=
  { state with log := state.log ++ [exposure] }

/-! ### What is read -/

variable (state : XMLHttpRequest Headers Data)

def getResponseText : List (Received Data) :=
  if state.responseType.isText && !state.readyState.beforeLoading then state.response else []

/-- The body, which is decoded when it is first read. -/
def getResponse : List (Received Data) × XMLHttpRequest Headers Data :=
  if state.responseType.isText then
    (if state.readyState.beforeLoading || state.hasError then [] else state.response, state)
  else if state.readyState ≠ .done then ([], state)
  else
    let response := state.cachedResponse.getD
      (if state.responseType = .document then [] else state.response)
    (response, { state with cachedResponse := some response })

def read (state : XMLHttpRequest Headers Data) : XMLHttpRequest Headers Data :=
  state.getResponse.2.expose (.read
    (state.status.toList.map Received.request ++
      state.responseHeaders.toList.map Received.request ++
      state.getResponseText.map Received.request ++ state.getResponse.1.map Received.request))

/-! ### Events -/

def reset : XMLHttpRequest Headers Data :=
  { state with
    readyState := .unsent
    responseHeaders := none
    status := none
    responseURL := none
    requestId := none
    cachedResponse := none
    hasError := false
    response := []
    responseType := .empty
    sent := false
    subscribed := false
    timedOut := false }

/-- An event counts when it is dispatched, before its handlers run. -/
def dispatchEvent (type : RequestEvent) (cause : Option ℕ)
    (handler : XMLHttpRequest Headers Data → XMLHttpRequest Headers Data)
    (state : XMLHttpRequest Headers Data) : XMLHttpRequest Headers Data :=
  handler (state.expose (.event type cause))

def setReadyState (newState : ReadyState) (cause : Option ℕ) (onReadyStateChange onEnd onLoadend :
      XMLHttpRequest Headers Data → XMLHttpRequest Headers Data)
    (state : XMLHttpRequest Headers Data) : XMLHttpRequest Headers Data :=
  let changed := dispatchEvent .readystatechange cause onReadyStateChange
    { state with readyState := newState }
  if newState = .done then
    let type : RequestEvent :=
      if changed.aborted then .abort
      else if changed.hasError then if changed.timedOut then .timeout else .error
      else .load
    dispatchEvent .loadend cause onLoadend (dispatchEvent type cause onEnd changed)
  else changed

def NothingToAbort : Prop :=
  state.readyState = .unsent ∨ (state.readyState = .opened ∧ state.sent = false) ∨
    state.readyState = .done

instance (state : XMLHttpRequest Headers Data) : Decidable state.NothingToAbort :=
  inferInstanceAs (Decidable (_ ∨ _ ∨ _))

/-- The native request is told to stop, but what it has sent arrives all the same. -/
def abort (onReadyStateChange onEnd onLoadend :
      XMLHttpRequest Headers Data → XMLHttpRequest Headers Data)
    (state : XMLHttpRequest Headers Data) : XMLHttpRequest Headers Data :=
  let aborting := { state with aborted := true }
  if aborting.NothingToAbort then aborting.reset
  else (setReadyState .done none onReadyStateChange onEnd onLoadend aborting.reset).reset

end XMLHttpRequest

def Reaction.run {Headers Data : Type} :
    Reaction → XMLHttpRequest Headers Data → XMLHttpRequest Headers Data
  | .done, state => state
  | .read rest, state => rest.run state.read
  | .abort onReadyStateChange onEnd onLoadend rest, state =>
    rest.run (state.abort onReadyStateChange.run onEnd.run onLoadend.run)

inductive RequestAction (Headers Data : Type) where
  | openRequest (method url : List Char) (async : Option Bool) (onReadyStateChange : Reaction)
  | setResponseType (type : ResponseType)
  | send
  | abort (onReadyStateChange onEnd onLoadend : Reaction)
  | read
  | didCreateRequest (request : ℕ)
  /-- With what the handlers of its events do. -/
  | receive (request : ℕ) (event : NativeEvent Headers Data) (first second third : Reaction)

namespace XMLHttpRequest

variable {Headers Data : Type}

/-! ### Calls -/

/-- Throws, which changes nothing, if it cannot be opened. -/
def openRequest (method url : List Char) (async : Option Bool)
    (onReadyStateChange : XMLHttpRequest Headers Data → XMLHttpRequest Headers Data)
    (state : XMLHttpRequest Headers Data) : XMLHttpRequest Headers Data :=
  if state.readyState ≠ .unsent ∨ async = some false ∨ url = [] then state
  else
    setReadyState .opened none onReadyStateChange id id
      ({ state with
        method := some (method.map Char.toUpper)
        url := some url
        aborted := false }.expose .opened)

def setResponseType (type : ResponseType) (state : XMLHttpRequest Headers Data) :
    XMLHttpRequest Headers Data :=
  if state.sent then state else { state with responseType := type }

/-- There is no native request if the method is empty, as `send` throws in its middle. -/
def send (state : XMLHttpRequest Headers Data) : XMLHttpRequest Headers Data :=
  if state.readyState ≠ .opened ∨ state.sent then state
  else
    { state.expose .sent with
      sent := true
      subscribed := true
      sends := state.sends + 1
      native :=
        if state.method.getD [] = [] ∨ state.url.getD [] = [] then state.native
        else Function.update state.native state.sends .requested }

/-! ### Native events -/

variable (requestID : ℕ → ℕ) (request : ℕ) (state : XMLHttpRequest Headers Data)

def didCreateRequest : XMLHttpRequest Headers Data :=
  { state with
    requestId := some (requestID request)
    native := Function.update state.native request .created }

variable (handler : XMLHttpRequest Headers Data → XMLHttpRequest Headers Data)

def didUploadProgress (state : XMLHttpRequest Headers Data) : XMLHttpRequest Headers Data :=
  if state.requestId = some (requestID request) then
    dispatchEvent .uploadProgress (some request) handler state
  else state

/-- The URL is set after the handlers have run, also if they have aborted the request. -/
def didReceiveResponse (status : ℕ) (responseHeaders : Option Headers) (responseURL : Option Data)
    (handler : XMLHttpRequest Headers Data → XMLHttpRequest Headers Data)
    (state : XMLHttpRequest Headers Data) : XMLHttpRequest Headers Data :=
  if state.requestId = some (requestID request) then
    { setReadyState .headersReceived (some request) handler id id
        { state with
          status := some ⟨request, status⟩
          responseHeaders := responseHeaders.map (Received.mk request) } with
      responseURL := responseURL.map (Received.mk request) }
  else state

def didReceiveData (response : Data)
    (handler : XMLHttpRequest Headers Data → XMLHttpRequest Headers Data)
    (state : XMLHttpRequest Headers Data) : XMLHttpRequest Headers Data :=
  if state.requestId = some (requestID request) then
    setReadyState .loading (some request) handler id id
      { state with response := [⟨request, response⟩], cachedResponse := none }
  else state

def didReceiveDataProgress (state : XMLHttpRequest Headers Data) : XMLHttpRequest Headers Data :=
  if state.requestId = some (requestID request) then
    dispatchEvent .progress (some request) handler state
  else state

def didReceiveIncrementalData (responseText : Data)
    (onReadyStateChange onProgress : XMLHttpRequest Headers Data → XMLHttpRequest Headers Data)
    (state : XMLHttpRequest Headers Data) : XMLHttpRequest Headers Data :=
  if state.requestId = some (requestID request) then
    didReceiveDataProgress requestID request onProgress
      (setReadyState .loading (some request) onReadyStateChange id id
        { state with response := state.response ++ [⟨request, responseText⟩] })
  else state

def didCompleteResponse (error : Option Data) (timeOutError : Bool)
    (onReadyStateChange onEnd onLoadend : XMLHttpRequest Headers Data → XMLHttpRequest Headers Data)
    (state : XMLHttpRequest Headers Data) : XMLHttpRequest Headers Data :=
  if state.requestId = some (requestID request) then
    let failed :=
      match error with
      | none => state
      | some error => { state with
          response := if state.responseType.isText then [⟨request, error⟩] else state.response
          hasError := true
          timedOut := timeOutError || state.timedOut }
    setReadyState .done (some request) onReadyStateChange onEnd onLoadend
      { failed with subscribed := false, requestId := none }
  else state

def receive (event : NativeEvent Headers Data)
    (first second third : XMLHttpRequest Headers Data → XMLHttpRequest Headers Data)
    (state : XMLHttpRequest Headers Data) : XMLHttpRequest Headers Data :=
  if state.subscribed then
    match event with
    | .didSendNetworkData => state.didUploadProgress requestID request first
    | .didReceiveNetworkResponse status headers responseURL =>
      state.didReceiveResponse requestID request status headers responseURL first
    | .didReceiveNetworkData response => state.didReceiveData requestID request response first
    | .didReceiveNetworkIncrementalData responseText =>
      state.didReceiveIncrementalData requestID request responseText first second
    | .didReceiveNetworkDataProgress => state.didReceiveDataProgress requestID request first
    | .didCompleteNetworkResponse error timeOutError =>
      state.didCompleteResponse requestID request error timeOutError first second third
  else state

def step : RequestAction Headers Data → Option (XMLHttpRequest Headers Data)
  | .openRequest method url async onReadyStateChange =>
    some (state.openRequest method url async onReadyStateChange.run)
  | .setResponseType type => some (state.setResponseType type)
  | .send => some state.send
  | .abort onReadyStateChange onEnd onLoadend =>
    some (state.abort onReadyStateChange.run onEnd.run onLoadend.run)
  | .read => some state.read
  | .didCreateRequest request =>
    if state.native request = .requested then some (state.didCreateRequest requestID request)
    else none
  | .receive request event first second third =>
    if state.native request = .created then
      some (receive requestID request event first.run second.run third.run
        { state with native := Function.update state.native request event.after })
    else none

end XMLHttpRequest

end ReactNative

