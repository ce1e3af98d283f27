import Mathlib.Data.Int.Notation
import Mathlib.Order.Nat
import OrbiGateway.Library.Runs

/-!
# The body limit

`SecurityMiddleware` stands between the server and the application.  It refuses a request
whose `Content-Length` is too large or is no number, counts the body bytes that the
application receives, and adds headers to the response that the application starts.  The
application is any program that sends and receives, and may catch what `receive` raises.
-/

namespace OrbiGateway

open Transition

/-! ## Byte strings -/

/-- A byte string literal. -/
def bytes (text : String) : List UInt8 :=
  text.toList.map fun c => UInt8.ofNat c.toNat

namespace PyInt

/-- `Py_ISSPACE`. -/
def isSpace (b : UInt8) : Bool :=
  b == 32 || (9 ≤ b && b ≤ 13)

def isDigit (b : UInt8) : Bool :=
  48 ≤ b && b ≤ 57

/-- Digits with single underscores between them: their value, their number and what comes
after them. -/
def readDigits (value count : ℕ) : List UInt8 → ℕ × ℕ × List UInt8
  | [] => (value, count, [])
  | b :: rest =>
      if isDigit b then readDigits (value * 10 + (b.toNat - 48)) (count + 1) rest
      else if b == 95 && count != 0 && rest.head?.any isDigit then
        readDigits value count rest
      else (value, count, b :: rest)

/-- The longest decimal text that `int` converts. -/
def maxStrDigits : ℕ := 4300

/-- `int` of a byte string, which may raise `ValueError`. -/
def parse (text : List UInt8) : Option ℤ :=
  let text := text.dropWhile isSpace
  let (negative, text) :=
    match text with
    | 43 :: rest => (false, rest)
    | 45 :: rest => (true, rest)
    | _ => (false, text)
  let (value, count, rest) := readDigits 0 0 text
  if count = 0 ∨ maxStrDigits < count ∨ rest.all isSpace = false then none
  else some (if negative then -(value : ℤ) else value)

example : parse (bytes " +1_048_576\n") = some 1048576 := by decide

example : parse (bytes "12a") = none ∧ parse (bytes "1__2") = none ∧ parse [] = none := by
  decide

end PyInt

/-! ## Messages -/

/-- A header with its name and value. -/
abbrev Header := List UInt8 × List UInt8

/-- An ASGI message: what the middleware reads of it, and the rest. -/
@[ext] structure ASGIMessage (ε : Type*) where
  type : Option String
  body : Option (List UInt8)
  headers : Option (List Header)
  rest : ε

/-- The scope of a call.  `requestId` is the entry `request_id` of its state. -/
structure ASGIScope (χ : Type*) where
  type : Option String
  headers : Option (List Header)
  requestId : Option String
  rest : χ

/-- What `send` and `receive` may raise. -/
inductive ASGIException
  | requestBodyTooLarge
  | valueError
  | other (name : String)
  deriving DecidableEq

section Messages

variable {ε : Type*}

namespace ASGIMessage

def isRequest (m : ASGIMessage ε) : Bool :=
  m.type == some "http.request"

def isStart (m : ASGIMessage ε) : Bool :=
  m.type == some "http.response.start"

/-- The body bytes that the message adds to those of the request. -/
def size (m : ASGIMessage ε) : ℕ :=
  if m.isRequest then (m.body.getD []).length else 0

end ASGIMessage

/-- The body bytes of a list of messages. -/
def bodyBytes (messages : List (ASGIMessage ε)) : ℕ :=
  messages.foldr (fun m total => m.size + total) 0

theorem bodyBytes_cons {m : ASGIMessage ε} {messages : List (ASGIMessage ε)} :
    bodyBytes (m :: messages) = m.size + bodyBytes messages :=
  rfl

/-- What an application does next: a step of its own, `receive` or `send` with what it
does with the answer, or its end. -/
inductive ASGIAction (ε σ : Type*)
  | compute (s : σ)
  | receive (k : Except ASGIException (ASGIMessage ε) → σ)
  | send (m : ASGIMessage ε) (k : Except ASGIException Unit → σ)
  | finish
  | raise (exception : ASGIException)

/-- An application with states `σ`: where a call begins, and what it may do in each
state. -/
structure ASGIApp (ε χ σ : Type*) where
  start : ASGIScope χ → σ
  next : σ → ASGIAction ε σ → Prop

/-- A third-party `JSONResponse`: the messages that it sends for a status, an error code
and message, and headers. -/
def JSONResponse (ε : Type*) :=
  ℕ → String → String → List (String × String) → List (ASGIMessage ε)

/-- A header in the bytes in which it is sent. -/
def encodeHeader (header : String × String) : Header :=
  ((header.1.toList.map Char.toLower).map fun c => UInt8.ofNat c.toNat, bytes header.2)

/-- It sends one start, which carries the headers, and then no other start. -/
def JSONResponse.Responds (response : JSONResponse ε) : Prop :=
  ∀ status code message headers, ∃ start rest,
    response status code message headers = start :: rest ∧ start.isStart = true ∧
      (∀ header ∈ headers, encodeHeader header ∈ start.headers.getD []) ∧
      ∀ m ∈ rest, m.isStart = false

end Messages

/-! ## The middleware -/

/-- A middleware whose limit has passed the check of its constructor. -/
structure SecurityMiddleware where
  maxBodyBytes : ℕ
  maxBodyBytes_ge : 1024 ≤ maxBodyBytes

namespace SecurityMiddleware

variable {ε χ : Type*} (middleware : SecurityMiddleware)

/-- `dict(headers).get(b"content-length")`: the last of equal names stays. -/
def contentLength (scope : ASGIScope χ) : Option (List UInt8) :=
  ((scope.headers.getD []).reverse.find? fun header =>
    header.1 == bytes "content-length").map Prod.snd

/-- The code with which the request is refused before the application runs. -/
def refusal (scope : ASGIScope χ) : Option String :=
  match contentLength scope with
  | none => none
  | some value =>
      match PyInt.parse value with
      | none => some "invalid_content_length"
      | some length =>
          if length > middleware.maxBodyBytes then some "request_body_too_large" else none

/-- `limited_receive`, once the server has given a message: the bytes consumed and what
the application gets. -/
def limitedReceive (consumed : ℕ) (m : ASGIMessage ε) :
    ℕ × Except ASGIException (ASGIMessage ε) :=
  if m.isRequest then
    let consumed := consumed + (m.body.getD []).length
    if consumed > middleware.maxBodyBytes then (consumed, .error .requestBodyTooLarge)
    else (consumed, .ok m)
  else (consumed, .ok m)

/-- The headers that `secure_send` adds. -/
def secureHeaders (requestId : String) : List Header :=
  [(bytes "x-content-type-options", bytes "nosniff"),
    (bytes "cache-control", bytes "no-store"),
    (bytes "x-orbi-request-id", requestId.toUTF8.toList)]

/-- `secure_send`: whether the response has started, and the message for the server. -/
def secureSend (requestId : String) (responseStarted : Bool) (m : ASGIMessage ε) :
    Bool × ASGIMessage ε :=
  if m.isStart then
    (true, { m with headers := some (m.headers.getD [] ++ secureHeaders requestId) })
  else (responseStarted, m)

/-- The messages of `_reject`. -/
def reject (response : JSONResponse ε) (code : String) : List (ASGIMessage ε) :=
  response (if code = "request_body_too_large" then 413 else 400) code
    "Request body is invalid or exceeds the configured limit."
    [("Cache-Control", "no-store"), ("X-Content-Type-Options", "nosniff")]

end SecurityMiddleware

/-! ## Runs of a call -/

/-- How far `__call__` has come: before the application, in it on the limited or on the
server's own channel, in `_reject` with the messages left, or at its end.  The `_reject` of a
length that is too large is called inside the `try` that catches `ValueError`. -/
inductive MiddlewarePhase (ε σ : Type*)
  | entered
  | limited (s : σ)
  | unlimited (s : σ)
  | rejecting (inTry : Bool) (left : List (ASGIMessage ε))
  | ended (result : Except ASGIException Unit)

/-- The phase and the variables of the closures. -/
structure MiddlewareState (ε σ : Type*) where
  phase : MiddlewarePhase ε σ
  consumed : ℕ
  responseStarted : Bool

/-- What happens at the two sides of the middleware.  `received` has a message of the
server and what the application gets for it, `sent` a message of the application and what
the server gets.  In `interrupted` the server raises `ValueError` for a message of the
`_reject` in the `try`. -/
inductive MiddlewareEvent (ε : Type*)
  | called
  | refused (code : String)
  | computed
  | received (m : ASGIMessage ε) (answer : Except ASGIException (ASGIMessage ε))
  | receiveRaised (exception : ASGIException)
  | sent (m out : ASGIMessage ε)
  | responded (out : ASGIMessage ε)
  | interrupted (out : ASGIMessage ε)
  | finished (result : Except ASGIException Unit)

section Steps

variable {ε χ σ : Type*}

def MiddlewareState.start : MiddlewareState ε σ where
  phase := .entered
  consumed := 0
  responseStarted := false

/-- A step of a call with this scope and request id. -/
inductive MiddlewareStep (middleware : SecurityMiddleware) (response : JSONResponse ε)
    (app : ASGIApp ε χ σ) (scope : ASGIScope χ) (requestId : String) :
    MiddlewareState ε σ → MiddlewareEvent ε → MiddlewareState ε σ → Prop
  -- any scope but that of an HTTP request goes to the application as it is
  | passed {s : MiddlewareState ε σ} (hphase : s.phase = .entered)
      (htype : scope.type ≠ some "http") :
      MiddlewareStep middleware response app scope requestId s .called
        { s with phase := .unlimited (app.start scope) }
  | refused {s : MiddlewareState ε σ} {code : String} (hphase : s.phase = .entered)
      (htype : scope.type = some "http") (hrefusal : middleware.refusal scope = some code) :
      MiddlewareStep middleware response app scope requestId s (.refused code)
        { s with
          phase := .rejecting (code == "request_body_too_large")
            (SecurityMiddleware.reject response code) }
  | called {s : MiddlewareState ε σ} (hphase : s.phase = .entered)
      (htype : scope.type = some "http") (hrefusal : middleware.refusal scope = none) :
      MiddlewareStep middleware response app scope requestId s .called
        { s with phase := .limited (app.start { scope with requestId := some requestId }) }
  | computed {s : MiddlewareState ε σ} {state state' : σ} (hphase : s.phase = .limited state)
      (hnext : app.next state (.compute state')) :
      MiddlewareStep middleware response app scope requestId s .computed
        { s with phase := .limited state' }
  | received {s : MiddlewareState ε σ} {state : σ} {m : ASGIMessage ε} {consumed : ℕ}
      {answer : Except ASGIException (ASGIMessage ε)}
      {k : Except ASGIException (ASGIMessage ε) → σ} (hphase : s.phase = .limited state)
      (hnext : app.next state (.receive k))
      (hlimit : middleware.limitedReceive s.consumed m = (consumed, answer)) :
      MiddlewareStep middleware response app scope requestId s (.received m answer)
        { s with phase := .limited (k answer), consumed := consumed }
  | receiveRaised {s : MiddlewareState ε σ} {state : σ} {exception : ASGIException}
      {k : Except ASGIException (ASGIMessage ε) → σ} (hphase : s.phase = .limited state)
      (hnext : app.next state (.receive k)) :
      MiddlewareStep middleware response app scope requestId s (.receiveRaised exception)
        { s with phase := .limited (k (.error exception)) }
  -- the response counts as started also when the server raises
  | sent {s : MiddlewareState ε σ} {state : σ} {m out : ASGIMessage ε}
      {responseStarted : Bool} {result : Except ASGIException Unit}
      {k : Except ASGIException Unit → σ} (hphase : s.phase = .limited state)
      (hnext : app.next state (.send m k))
      (hsend : SecurityMiddleware.secureSend requestId s.responseStarted m =
        (responseStarted, out)) :
      MiddlewareStep middleware response app scope requestId s (.sent m out)
        { s with phase := .limited (k result), responseStarted := responseStarted }
  | finished {s : MiddlewareState ε σ} {state : σ} (hphase : s.phase = .limited state)
      (hnext : app.next state .finish) :
      MiddlewareStep middleware response app scope requestId s (.finished (.ok ()))
        { s with phase := .ended (.ok ()) }
  | raised {s : MiddlewareState ε σ} {state : σ} {exception : ASGIException}
      (hphase : s.phase = .limited state) (hnext : app.next state (.raise exception))
      (hraises : exception ≠ .requestBodyTooLarge ∨ s.responseStarted = true) :
      MiddlewareStep middleware response app scope requestId s
        (.finished (.error exception)) { s with phase := .ended (.error exception) }
  | overflowed {s : MiddlewareState ε σ} {state : σ} (hphase : s.phase = .limited state)
      (hnext : app.next state (.raise .requestBodyTooLarge))
      (hstarted : s.responseStarted = false) :
      MiddlewareStep middleware response app scope requestId s
        (.refused "request_body_too_large")
        { s with
          phase := .rejecting false
            (SecurityMiddleware.reject response "request_body_too_large") }
  | responded {s : MiddlewareState ε σ} {inTry : Bool} {out : ASGIMessage ε}
      {left : List (ASGIMessage ε)} (hphase : s.phase = .rejecting inTry (out :: left)) :
      MiddlewareStep middleware response app scope requestId s (.responded out)
        { s with phase := .rejecting inTry left }
  | respondRaised {s : MiddlewareState ε σ} {inTry : Bool} {out : ASGIMessage ε}
      {left : List (ASGIMessage ε)} {exception : ASGIException}
      (hphase : s.phase = .rejecting inTry (out :: left))
      (hraises : inTry = false ∨ exception ≠ .valueError) :
      MiddlewareStep middleware response app scope requestId s (.responded out)
        { s with phase := .ended (.error exception) }
  -- `except ValueError` answers it as it answers one of `int`
  | interrupted {s : MiddlewareState ε σ} {out : ASGIMessage ε}
      {left : List (ASGIMessage ε)} (hphase : s.phase = .rejecting true (out :: left)) :
      MiddlewareStep middleware response app scope requestId s (.interrupted out)
        { s with
          phase := .rejecting false
            (SecurityMiddleware.reject response "invalid_content_length") }
  | rejected {s : MiddlewareState ε σ} {inTry : Bool} (hphase : s.phase = .rejecting inTry []) :
      MiddlewareStep middleware response app scope requestId s (.finished (.ok ()))
        { s with phase := .ended (.ok ()) }
  | bareComputed {s : MiddlewareState ε σ} {state state' : σ}
      (hphase : s.phase = .unlimited state) (hnext : app.next state (.compute state')) :
      MiddlewareStep middleware response app scope requestId s .computed
        { s with phase := .unlimited state' }
  | bareReceived {s : MiddlewareState ε σ} {state : σ} {m : ASGIMessage ε}
      {k : Except ASGIException (ASGIMessage ε) → σ} (hphase : s.phase = .unlimited state)
      (hnext : app.next state (.receive k)) :
      MiddlewareStep middleware response app scope requestId s (.received m (.ok m))
        { s with phase := .unlimited (k (.ok m)) }
  | bareReceiveRaised {s : MiddlewareState ε σ} {state : σ} {exception : ASGIException}
      {k : Except ASGIException (ASGIMessage ε) → σ} (hphase : s.phase = .unlimited state)
      (hnext : app.next state (.receive k)) :
      MiddlewareStep middleware response app scope requestId s (.receiveRaised exception)
        { s with phase := .unlimited (k (.error exception)) }
  | bareSent {s : MiddlewareState ε σ} {state : σ} {m : ASGIMessage ε}
      {result : Except ASGIException Unit} {k : Except ASGIException Unit → σ}
      (hphase : s.phase = .unlimited state) (hnext : app.next state (.send m k)) :
      MiddlewareStep middleware response app scope requestId s (.sent m m)
        { s with phase := .unlimited (k result) }
  | bareFinished {s : MiddlewareState ε σ} {state : σ} (hphase : s.phase = .unlimited state)
      (hnext : app.next state .finish) :
      MiddlewareStep middleware response app scope requestId s (.finished (.ok ()))
        { s with phase := .ended (.ok ()) }
  | bareRaised {s : MiddlewareState ε σ} {state : σ} {exception : ASGIException}
      (hphase : s.phase = .unlimited state) (hnext : app.next state (.raise exception)) :
      MiddlewareStep middleware response app scope requestId s
        (.finished (.error exception)) { s with phase := .ended (.error exception) }

end Steps

/-! ## What a history says about the messages -/

section Histories

variable {ε : Type*}

namespace MiddlewareEvent

/-- A message that the server has given to a `receive` of the application. -/
def pulled : MiddlewareEvent ε → Option (ASGIMessage ε)
  | .received m _ => some m
  | _ => none

/-- A message that a `receive` of the application has returned. -/
def returned : MiddlewareEvent ε → Option (ASGIMessage ε)
  | .received _ (.ok m) => some m
  | _ => none

/-- A message that the application has sent. -/
def appSent : MiddlewareEvent ε → Option (ASGIMessage ε)
  | .sent m _ => some m
  | _ => none

/-- A message that has gone to the server. -/
def outgoing : MiddlewareEvent ε → Option (ASGIMessage ε)
  | .sent _ out => some out
  | .responded out => some out
  | .interrupted out => some out
  | _ => none

def isInterruption : MiddlewareEvent ε → Bool
  | .interrupted _ => true
  | _ => false

/-- The application runs. -/
def ofApp : MiddlewareEvent ε → Bool
  | .called => true
  | .computed => true
  | .received _ _ => true
  | .receiveRaised _ => true
  | .sent _ _ => true
  | _ => false

end MiddlewareEvent

def pulledMessages (history : List (MiddlewareEvent ε)) : List (ASGIMessage ε) :=
  history.filterMap MiddlewareEvent.pulled

def returnedMessages (history : List (MiddlewareEvent ε)) : List (ASGIMessage ε) :=
  history.filterMap MiddlewareEvent.returned

def outgoingMessages (history : List (MiddlewareEvent ε)) : List (ASGIMessage ε) :=
  history.filterMap MiddlewareEvent.outgoing

/-- The responses that have been started towards the server. -/
def startsSent (history : List (MiddlewareEvent ε)) : ℕ :=
  (outgoingMessages history).countP ASGIMessage.isStart

/-- The responses that the application has started. -/
def startsByApp (history : List (MiddlewareEvent ε)) : ℕ :=
  (history.filterMap MiddlewareEvent.appSent).countP ASGIMessage.isStart

/-- How often a second answer has followed the first. -/
def interruptions (history : List (MiddlewareEvent ε)) : ℕ :=
  history.countP MiddlewareEvent.isInterruption

/-- The message carries the headers against caching and content sniffing. -/
def ASGIMessage.IsSecured (m : ASGIMessage ε) : Prop :=
  (bytes "cache-control", bytes "no-store") ∈ m.headers.getD [] ∧
    (bytes "x-content-type-options", bytes "nosniff") ∈ m.headers.getD []

end Histories

/-! ## Functions of the middleware -/

section Functions

variable {ε χ σ : Type*} {middleware : SecurityMiddleware} {response : JSONResponse ε}
  {app : ASGIApp ε χ σ} {scope : ASGIScope χ} {requestId : String}

namespace SecurityMiddleware

/-- The `Content-Length` that counts is absent, or a number within the limit. -/
def Admits (middleware : SecurityMiddleware) (scope : ASGIScope χ) : Prop :=
  ∀ value, contentLength scope = some value →
    ∃ length, PyInt.parse value = some length ∧ length ≤ middleware.maxBodyBytes

theorem refusal_eq_none_iff : middleware.refusal scope = none ↔ middleware.Admits scope := by
  rw [refusal, Admits]
  cases contentLength scope with
  | none => simp
  | some value =>
      cases hlength : PyInt.parse value with
      | none => simp [hlength]
      | some length => simp [hlength]

/-- What `limited_receive` counts and gives. -/
theorem limitedReceive_spec {consumed consumed' : ℕ} {m : ASGIMessage ε}
    {answer : Except ASGIException (ASGIMessage ε)}
    (h : middleware.limitedReceive consumed m = (consumed', answer)) :
    consumed' = consumed + m.size ∧
      ((answer = .ok m ∧ (m.isRequest = true → consumed' ≤ middleware.maxBodyBytes)) ∨
        (answer = .error .requestBodyTooLarge ∧ middleware.maxBodyBytes < consumed')) := by
  rw [limitedReceive] at h
  rw [ASGIMessage.size]
  by_cases hrequest : m.isRequest = true
  · simp only [hrequest, if_true] at h ⊢
    split at h
    next hover =>
      cases h
      exact ⟨rfl, Or.inr ⟨rfl, hover⟩⟩
    next hfits =>
      cases h
      exact ⟨rfl, Or.inl ⟨rfl, fun _ => Nat.not_lt.mp hfits⟩⟩
  · rw [if_neg hrequest] at h ⊢
    cases h
    exact ⟨rfl, Or.inl ⟨rfl, fun hyes => absurd hyes hrequest⟩⟩

/-- What `secure_send` records and adds. -/
theorem secureSend_spec {started started' : Bool} {m out : ASGIMessage ε}
    (h : secureSend requestId started m = (started', out)) :
    out.isStart = m.isStart ∧ started' = (started || m.isStart) ∧
      (out.isStart = true → out.IsSecured) := by
  rw [secureSend] at h
  by_cases hstart : m.isStart = true
  · rw [if_pos hstart] at h
    cases h
    refine ⟨rfl, by simp [hstart], fun _ => ⟨?_, ?_⟩⟩
    · simp [secureHeaders]
    · simp [secureHeaders]
  · rw [if_neg hstart] at h
    cases h
    exact ⟨rfl, by simp [hstart], fun hyes => absurd hyes hstart⟩

theorem reject_spec (hresponse : response.Responds) (code : String) :
    (reject response code).countP ASGIMessage.isStart = 1 ∧
      ∀ out ∈ reject response code, out.isStart = true → out.IsSecured := by
  obtain ⟨start, rest, hmessages, hstart, hheaders, hrest⟩ := hresponse
    (if code = "request_body_too_large" then 413 else 400) code
    "Request body is invalid or exceeds the configured limit."
    [("Cache-Control", "no-store"), ("X-Content-Type-Options", "nosniff")]
  have hnone : rest.countP ASGIMessage.isStart = 0 := by
    rw [List.countP_eq_zero]
    intro m hm hyes
    rw [hrest m hm] at hyes
    cases hyes
  rw [reject, hmessages]
  refine ⟨?_, ?_⟩
  · rw [List.countP_cons, if_pos hstart, hnone]
  · intro out hout hyes
    rcases List.mem_cons.mp hout with rfl | hmem
    · exact ⟨hheaders _ List.mem_cons_self,
        hheaders _ (List.mem_cons_of_mem _ List.mem_cons_self)⟩
    · rw [hrest out hmem] at hyes
      cases hyes

end SecurityMiddleware

end Functions

/-! ## What every step keeps -/

section Invariants

variable {ε χ σ : Type*} {middleware : SecurityMiddleware} {response : JSONResponse ε}
  {app : ASGIApp ε χ σ} {scope : ASGIScope χ} {requestId : String}
  {history : List (MiddlewareEvent ε)} {s s' : MiddlewareState ε σ} {e : MiddlewareEvent ε}

/-- What a step of an HTTP call does to the body: nothing, or one message passes
`limited_receive`. -/
theorem MiddlewareStep.body_cases (htype : scope.type = some "http")
    (hguarded : ∀ state, s.phase ≠ .unlimited state)
    (hstep : MiddlewareStep middleware response app scope requestId s e s') :
    (∀ state, s'.phase ≠ .unlimited state) ∧
      ((e.pulled = none ∧ e.returned = none ∧ s'.consumed = s.consumed) ∨
        ∃ m answer, e = .received m answer ∧
          middleware.limitedReceive s.consumed m = (s'.consumed, answer)) := by
  cases hstep with
  | passed _ hother => exact absurd htype hother
  | refused _ _ _ => exact ⟨nofun, Or.inl ⟨rfl, rfl, rfl⟩⟩
  | called _ _ _ => exact ⟨nofun, Or.inl ⟨rfl, rfl, rfl⟩⟩
  | computed _ _ => exact ⟨nofun, Or.inl ⟨rfl, rfl, rfl⟩⟩
  | received _ _ hlimit => exact ⟨nofun, Or.inr ⟨_, _, rfl, hlimit⟩⟩
  | receiveRaised _ _ => exact ⟨nofun, Or.inl ⟨rfl, rfl, rfl⟩⟩
  | sent _ _ _ => exact ⟨nofun, Or.inl ⟨rfl, rfl, rfl⟩⟩
  | finished _ _ => exact ⟨nofun, Or.inl ⟨rfl, rfl, rfl⟩⟩
  | raised _ _ _ => exact ⟨nofun, Or.inl ⟨rfl, rfl, rfl⟩⟩
  | overflowed _ _ _ => exact ⟨nofun, Or.inl ⟨rfl, rfl, rfl⟩⟩
  | responded _ => exact ⟨nofun, Or.inl ⟨rfl, rfl, rfl⟩⟩
  | respondRaised _ _ => exact ⟨nofun, Or.inl ⟨rfl, rfl, rfl⟩⟩
  | interrupted _ => exact ⟨nofun, Or.inl ⟨rfl, rfl, rfl⟩⟩
  | rejected _ => exact ⟨nofun, Or.inl ⟨rfl, rfl, rfl⟩⟩
  | bareComputed hphase _ => exact absurd hphase (hguarded _)
  | bareReceived hphase _ => exact absurd hphase (hguarded _)
  | bareReceiveRaised hphase _ => exact absurd hphase (hguarded _)
  | bareSent hphase _ => exact absurd hphase (hguarded _)
  | bareFinished hphase _ => exact absurd hphase (hguarded _)
  | bareRaised hphase _ => exact absurd hphase (hguarded _)

/-- On the limited channel the bytes consumed are those of the server's messages, and
what the application has got fits. -/
structure BodyLimited (middleware : SecurityMiddleware)
    (history : List (MiddlewareEvent ε)) (s : MiddlewareState ε σ) : Prop where
  guarded : ∀ state, s.phase ≠ .unlimited state
  consumed : s.consumed = bodyBytes (pulledMessages history)
  bounded : bodyBytes (returnedMessages history) ≤ middleware.maxBodyBytes
  unchanged : s.consumed ≤ middleware.maxBodyBytes →
    returnedMessages history = pulledMessages history

theorem bodyLimited_start :
    BodyLimited middleware [] (.start : MiddlewareState ε σ) where
  guarded := nofun
  consumed := rfl
  bounded := Nat.zero_le _
  unchanged _ := rfl

theorem BodyLimited.step (h : BodyLimited middleware history s)
    (htype : scope.type = some "http")
    (hstep : MiddlewareStep middleware response app scope requestId s e s') :
    BodyLimited middleware (e :: history) s' := by
  obtain ⟨hguarded, ⟨hpulled, hreturned, hconsumed⟩ | ⟨m, answer, rfl, hlimit⟩⟩ :=
    hstep.body_cases htype h.guarded
  · refine ⟨hguarded, ?_, ?_, ?_⟩
    · rw [pulledMessages, List.filterMap_cons_none hpulled, hconsumed]
      exact h.consumed
    · rw [returnedMessages, List.filterMap_cons_none hreturned]
      exact h.bounded
    · rw [pulledMessages, returnedMessages, List.filterMap_cons_none hpulled,
        List.filterMap_cons_none hreturned, hconsumed]
      exact h.unchanged
  obtain ⟨hconsumed, hanswer⟩ := SecurityMiddleware.limitedReceive_spec hlimit
  have hpulled : s'.consumed =
      bodyBytes (pulledMessages (.received m answer :: history)) := by
    change s'.consumed = bodyBytes (m :: pulledMessages history)
    rw [bodyBytes_cons, ← h.consumed, hconsumed, Nat.add_comm]
  rcases hanswer with ⟨rfl, hfits⟩ | ⟨rfl, hover⟩
  · have hreturned : returnedMessages (.received m (.ok m) :: history) =
        m :: returnedMessages history := rfl
    refine ⟨hguarded, hpulled, ?_, ?_⟩
    · rw [hreturned, bodyBytes_cons]
      by_cases hrequest : m.isRequest = true
      · have hle := hfits hrequest
        rw [h.unchanged (by omega), ← h.consumed]
        omega
      · have hsize : m.size = 0 := by rw [ASGIMessage.size, if_neg hrequest]
        rw [hsize, Nat.zero_add]
        exact h.bounded
    · intro hle
      rw [hreturned, h.unchanged (by omega)]
      rfl
  · exact ⟨hguarded, hpulled, h.bounded, fun hle => by omega⟩

/-- Once the limit is exceeded the application gets no part of the body. -/
structure BodyCut (middleware : SecurityMiddleware)
    (history : List (MiddlewareEvent ε)) (s : MiddlewareState ε σ) : Prop where
  guarded : ∀ state, s.phase ≠ .unlimited state
  exceeded : middleware.maxBodyBytes < s.consumed
  cut : ∀ m ∈ returnedMessages history, m.isRequest = false

theorem BodyCut.step (h : BodyCut middleware history s) (htype : scope.type = some "http")
    (hstep : MiddlewareStep middleware response app scope requestId s e s') :
    BodyCut middleware (e :: history) s' := by
  have hover := h.exceeded
  obtain ⟨hguarded, ⟨-, hreturned, hconsumed⟩ | ⟨m, answer, rfl, hlimit⟩⟩ :=
    hstep.body_cases htype h.guarded
  · refine ⟨hguarded, by omega, ?_⟩
    rw [returnedMessages, List.filterMap_cons_none hreturned]
    exact h.cut
  obtain ⟨hconsumed, hanswer⟩ := SecurityMiddleware.limitedReceive_spec hlimit
  refine ⟨hguarded, by omega, ?_⟩
  rcases hanswer with ⟨rfl, hfits⟩ | ⟨rfl, -⟩
  · intro out hout
    rcases List.mem_cons.mp hout with rfl | hmem
    · cases hrequest : out.isRequest with
      | false => rfl
      | true =>
          have hle := hfits hrequest
          omega
    · exact h.cut out hmem
  · exact h.cut

/-- The call is refused before the application. -/
structure AppUntouched (history : List (MiddlewareEvent ε)) (s : MiddlewareState ε σ) :
    Prop where
  events : ∀ e ∈ history, e.ofApp = false
  unlimited : ∀ state, s.phase ≠ .unlimited state
  limited : ∀ state, s.phase ≠ .limited state

theorem AppUntouched.step (h : AppUntouched history s) (htype : scope.type = some "http")
    {code : String} (hrefusal : middleware.refusal scope = some code)
    (hstep : MiddlewareStep middleware response app scope requestId s e s') :
    AppUntouched (e :: history) s' := by
  have hevents : e.ofApp = false → ∀ e' ∈ e :: history, e'.ofApp = false := by
    intro he e' hmem
    rcases List.mem_cons.mp hmem with rfl | hold
    · exact he
    · exact h.events e' hold
  cases hstep with
  | passed _ hother => exact absurd htype hother
  | refused _ _ _ => exact ⟨hevents rfl, nofun, nofun⟩
  | called _ _ hnone =>
      rw [hrefusal] at hnone
      cases hnone
  | responded _ => exact ⟨hevents rfl, nofun, nofun⟩
  | respondRaised _ _ => exact ⟨hevents rfl, nofun, nofun⟩
  | interrupted _ => exact ⟨hevents rfl, nofun, nofun⟩
  | rejected _ => exact ⟨hevents rfl, nofun, nofun⟩
  | computed hphase _ => exact absurd hphase (h.limited _)
  | received hphase _ _ => exact absurd hphase (h.limited _)
  | receiveRaised hphase _ => exact absurd hphase (h.limited _)
  | sent hphase _ _ => exact absurd hphase (h.limited _)
  | finished hphase _ => exact absurd hphase (h.limited _)
  | raised hphase _ _ => exact absurd hphase (h.limited _)
  | overflowed hphase _ _ => exact absurd hphase (h.limited _)
  | bareComputed hphase _ => exact absurd hphase (h.unlimited _)
  | bareReceived hphase _ => exact absurd hphase (h.unlimited _)
  | bareReceiveRaised hphase _ => exact absurd hphase (h.unlimited _)
  | bareSent hphase _ => exact absurd hphase (h.unlimited _)
  | bareFinished hphase _ => exact absurd hphase (h.unlimited _)
  | bareRaised hphase _ => exact absurd hphase (h.unlimited _)

/-- How many responses may have been started, by how far the call has come. -/
def StartsOk (history : List (MiddlewareEvent ε)) (responseStarted : Bool) :
    MiddlewarePhase ε σ → Prop
  | .entered => startsSent history = 0 ∧ startsByApp history = 0
  | .limited _ => startsSent history = startsByApp history ∧
      (responseStarted = false → startsByApp history = 0)
  | .unlimited _ => False
  | .rejecting _ left => startsByApp history = 0 ∧
      startsSent history + left.countP ASGIMessage.isStart ≤ 1 + interruptions history
  | .ended _ => startsSent history ≤ max 1 (startsByApp history) + interruptions history

/-- Every start that has gone to the server is secured, and where the application starts at
most one, each further one answers an interruption. -/
structure ResponseSecured (history : List (MiddlewareEvent ε))
    (s : MiddlewareState ε σ) : Prop where
  starts : StartsOk history s.responseStarted s.phase
  secured : ∀ out ∈ outgoingMessages history, out.isStart = true → out.IsSecured
  left : ∀ inTry left, s.phase = .rejecting inTry left →
    ∀ out ∈ left, out.isStart = true → out.IsSecured

theorem ended_of_limited (h : startsSent history = startsByApp history) :
    startsSent history ≤ max 1 (startsByApp history) + interruptions history :=
  (Nat.le_of_eq h).trans ((Nat.le_max_right _ _).trans (Nat.le_add_right _ _))

theorem ResponseSecured.step (h : ResponseSecured history s)
    (htype : scope.type = some "http") (hresponse : response.Responds)
    (hstep : MiddlewareStep middleware response app scope requestId s e s') :
    ResponseSecured (e :: history) s' := by
  obtain ⟨hstarts, hsecured, hleft⟩ := h
  have hreject := SecurityMiddleware.reject_spec hresponse
  have hmoved : ∀ {out : ASGIMessage ε} {e : MiddlewareEvent ε} left,
      e.outgoing = some out →
        startsSent (e :: history) + left.countP ASGIMessage.isStart =
          startsSent history + (out :: left).countP ASGIMessage.isStart := by
    intro out e left hout
    rw [startsSent, outgoingMessages, List.filterMap_cons_some hout, List.countP_cons,
      List.countP_cons, startsSent, outgoingMessages]
    omega
  have hanswered : ∀ {inTry out left} {e : MiddlewareEvent ε}, e.outgoing = some out →
      s.phase = .rejecting inTry (out :: left) →
        ∀ out' ∈ outgoingMessages (e :: history), out'.isStart = true → out'.IsSecured := by
    intro inTry out left e hout hphase out' hmem
    rw [outgoingMessages, List.filterMap_cons_some hout] at hmem
    rcases List.mem_cons.mp hmem with rfl | hold
    · exact hleft _ _ hphase out' List.mem_cons_self
    · exact hsecured out' hold
  cases hstep with
  | passed _ hother => exact absurd htype hother
  | @refused code hphase _ _ =>
      rw [hphase] at hstarts
      refine ⟨⟨hstarts.2, ?_⟩, hsecured, ?_⟩
      · change startsSent history + _ ≤ 1 + interruptions history
        rw [hstarts.1, (hreject code).1, Nat.zero_add]
        exact Nat.le_add_right _ _
      · rintro _ _ ⟨⟩
        exact (hreject code).2
  | called hphase _ _ =>
      rw [hphase] at hstarts
      exact ⟨⟨hstarts.1.trans hstarts.2.symm, fun _ => hstarts.2⟩, hsecured, nofun⟩
  | computed hphase _ =>
      rw [hphase] at hstarts
      exact ⟨hstarts, hsecured, nofun⟩
  | received hphase _ _ =>
      rw [hphase] at hstarts
      exact ⟨hstarts, hsecured, nofun⟩
  | receiveRaised hphase _ =>
      rw [hphase] at hstarts
      exact ⟨hstarts, hsecured, nofun⟩
  | @sent _ m out responseStarted _ _ hphase _ hsend =>
      rw [hphase] at hstarts
      obtain ⟨hsame, hstarted, hout⟩ := SecurityMiddleware.secureSend_spec hsend
      refine ⟨⟨?_, ?_⟩, ?_, nofun⟩
      · change (out :: outgoingMessages history).countP _ =
          (m :: history.filterMap MiddlewareEvent.appSent).countP _
        rw [List.countP_cons, List.countP_cons, hsame]
        exact congrArg (· + _) hstarts.1
      · intro hnot
        dsimp only at hnot
        rw [hstarted, Bool.or_eq_false_iff] at hnot
        change (m :: history.filterMap MiddlewareEvent.appSent).countP _ = 0
        rw [List.countP_cons, hnot.2]
        exact hstarts.2 hnot.1
      · intro out' hmem
        rcases List.mem_cons.mp hmem with rfl | hold
        · exact hout
        · exact hsecured out' hold
  | finished hphase _ =>
      rw [hphase] at hstarts
      exact ⟨ended_of_limited hstarts.1, hsecured, nofun⟩
  | raised hphase _ _ =>
      rw [hphase] at hstarts
      exact ⟨ended_of_limited hstarts.1, hsecured, nofun⟩
  | overflowed hphase _ hnot =>
      rw [hphase] at hstarts
      refine ⟨⟨hstarts.2 hnot, ?_⟩, hsecured, ?_⟩
      · change startsSent history + _ ≤ 1 + interruptions history
        rw [hstarts.1, hstarts.2 hnot, (hreject _).1, Nat.zero_add]
        exact Nat.le_add_right _ _
      · rintro _ _ ⟨⟩
        exact (hreject _).2
  | @responded inTry out left hphase =>
      rw [hphase] at hstarts
      refine ⟨⟨hstarts.1, ?_⟩, hanswered rfl hphase, ?_⟩
      · exact (Nat.le_of_eq (hmoved left rfl)).trans hstarts.2
      · rintro _ _ ⟨⟩ out' hmem
        exact hleft _ _ hphase out' (List.mem_cons_of_mem _ hmem)
  | @respondRaised inTry out left _ hphase _ =>
      rw [hphase] at hstarts
      refine ⟨?_, hanswered rfl hphase, nofun⟩
      calc startsSent (.responded out :: history) ≤
          startsSent (.responded out :: history) + left.countP ASGIMessage.isStart :=
            Nat.le_add_right _ _
        _ = startsSent history + (out :: left).countP ASGIMessage.isStart := hmoved left rfl
        _ ≤ 1 + interruptions history := hstarts.2
        _ ≤ max 1 (startsByApp history) + interruptions history :=
            Nat.add_le_add_right (Nat.le_max_left _ _) _
  | @interrupted out left hphase =>
      rw [hphase] at hstarts
      have hsent : startsSent (.interrupted out :: history) ≤ 1 + interruptions history :=
        (Nat.le_add_right _ _).trans ((Nat.le_of_eq (hmoved left rfl)).trans hstarts.2)
      have hcount : interruptions (.interrupted out :: history) = interruptions history + 1 :=
        List.countP_cons_of_pos rfl
      refine ⟨⟨hstarts.1, ?_⟩, hanswered rfl hphase, ?_⟩
      · rw [(hreject _).1, hcount]
        omega
      · rintro _ _ ⟨⟩
        exact (hreject _).2
  | rejected hphase =>
      rw [hphase] at hstarts
      refine ⟨?_, hsecured, nofun⟩
      exact ((Nat.le_add_right _ _).trans hstarts.2).trans
        (Nat.add_le_add_right (Nat.le_max_left _ _) _)
  | bareComputed hphase _ => exact absurd hstarts (by rw [hphase]; exact id)
  | bareReceived hphase _ => exact absurd hstarts (by rw [hphase]; exact id)
  | bareReceiveRaised hphase _ => exact absurd hstarts (by rw [hphase]; exact id)
  | bareSent hphase _ => exact absurd hstarts (by rw [hphase]; exact id)
  | bareFinished hphase _ => exact absurd hstarts (by rw [hphase]; exact id)
  | bareRaised hphase _ => exact absurd hstarts (by rw [hphase]; exact id)

/-- Only the answer to a length that is too large is sent inside the `try`. -/
structure InTry (middleware : SecurityMiddleware) (scope : ASGIScope χ)
    (history : List (MiddlewareEvent ε)) (s : MiddlewareState ε σ) : Prop where
  unlimited : ∀ state, s.phase ≠ .unlimited state
  rejecting : ∀ left, s.phase = .rejecting true left →
    middleware.refusal scope = some "request_body_too_large"
  interrupted : ∀ out, .interrupted out ∈ history →
    middleware.refusal scope = some "request_body_too_large"

theorem InTry.step (h : InTry middleware scope history s) (htype : scope.type = some "http")
    (hstep : MiddlewareStep middleware response app scope requestId s e s') :
    InTry middleware scope (e :: history) s' := by
  have hkept : e.isInterruption = false → ∀ out, .interrupted out ∈ e :: history →
      middleware.refusal scope = some "request_body_too_large" := by
    intro he out hmem
    rcases List.mem_cons.mp hmem with rfl | hold
    · cases he
    · exact h.interrupted out hold
  cases hstep with
  | passed _ hother => exact absurd htype hother
  | @refused code _ _ hrefusal =>
      refine ⟨nofun, ?_, hkept rfl⟩
      intro left hphase
      simp only [MiddlewarePhase.rejecting.injEq, beq_iff_eq] at hphase
      rw [hrefusal, hphase.1]
  | called _ _ _ => exact ⟨nofun, nofun, hkept rfl⟩
  | computed _ _ => exact ⟨nofun, nofun, hkept rfl⟩
  | received _ _ _ => exact ⟨nofun, nofun, hkept rfl⟩
  | receiveRaised _ _ => exact ⟨nofun, nofun, hkept rfl⟩
  | sent _ _ _ => exact ⟨nofun, nofun, hkept rfl⟩
  | finished _ _ => exact ⟨nofun, nofun, hkept rfl⟩
  | raised _ _ _ => exact ⟨nofun, nofun, hkept rfl⟩
  | overflowed _ _ _ => exact ⟨nofun, nofun, hkept rfl⟩
  | responded hphase =>
      refine ⟨nofun, ?_, hkept rfl⟩
      rintro _ ⟨⟩
      exact h.rejecting _ hphase
  | respondRaised _ _ => exact ⟨nofun, nofun, hkept rfl⟩
  | interrupted hphase => exact ⟨nofun, nofun, fun _ _ => h.rejecting _ hphase⟩
  | rejected _ => exact ⟨nofun, nofun, hkept rfl⟩
  | bareComputed hphase _ => exact absurd hphase (h.unlimited _)
  | bareReceived hphase _ => exact absurd hphase (h.unlimited _)
  | bareReceiveRaised hphase _ => exact absurd hphase (h.unlimited _)
  | bareSent hphase _ => exact absurd hphase (h.unlimited _)
  | bareFinished hphase _ => exact absurd hphase (h.unlimited _)
  | bareRaised hphase _ => exact absurd hphase (h.unlimited _)

end Invariants

/-! ## The limit -/

section Limit

variable {ε χ σ : Type*} {middleware : SecurityMiddleware} {response : JSONResponse ε}
  {app : ASGIApp ε χ σ} {scope : ASGIScope χ} {requestId : String}
  {history : List (MiddlewareEvent ε)} {s : MiddlewareState ε σ}

/-- A run of a call up to some point. -/
abbrev MiddlewareRun (middleware : SecurityMiddleware) (response : JSONResponse ε)
    (app : ASGIApp ε χ σ) (scope : ASGIScope χ) (requestId : String)
    (history : List (MiddlewareEvent ε)) (s : MiddlewareState ε σ) : Prop :=
  Run (MiddlewareStep middleware response app scope requestId) .start history s

theorem bodyLimited_of_run (htype : scope.type = some "http")
    (hrun : MiddlewareRun middleware response app scope requestId history s) :
    BodyLimited middleware history s :=
  hrun.history_invariant bodyLimited_start fun _ _ _ _ _ h hstep => h.step htype hstep

/-- After the limit is exceeded no part of the body is returned. -/
theorem isRequest_of_exceeded (htype : scope.type = some "http")
    {newer older : List (MiddlewareEvent ε)}
    (hrun : MiddlewareRun middleware response app scope requestId (newer ++ older) s)
    (hover : middleware.maxBodyBytes < bodyBytes (pulledMessages older)) :
    ∀ m ∈ returnedMessages newer, m.isRequest = false := by
  obtain ⟨mid, hold, hnew⟩ := hrun.split
  have hmid := bodyLimited_of_run htype hold
  have hcut : BodyCut middleware newer s :=
    hnew.history_invariant ⟨hmid.guarded, by rw [hmid.consumed]; exact hover, nofun⟩
      fun _ _ _ _ _ h hstep => h.step htype hstep
  exact hcut.cut

theorem appUntouched_of_run (htype : scope.type = some "http") {code : String}
    (hrefusal : middleware.refusal scope = some code)
    (hrun : MiddlewareRun middleware response app scope requestId history s) :
    AppUntouched history s :=
  hrun.history_invariant ⟨nofun, nofun, nofun⟩
    fun _ _ _ _ _ h hstep => h.step htype hrefusal hstep

theorem called_of_run (hrefusal : middleware.refusal scope = none)
    {newer : List (MiddlewareEvent ε)} {e : MiddlewareEvent ε}
    (hrun : MiddlewareRun middleware response app scope requestId (newer ++ [e]) s) :
    e = .called := by
  obtain ⟨mid, hold, -⟩ := hrun.split
  obtain ⟨first, hstart, hstep⟩ := hold.of_cons
  cases hstart
  cases hstep with
  | passed _ _ => rfl
  | called _ _ _ => rfl
  | refused _ _ hsome =>
      rw [hrefusal] at hsome
      cases hsome
  | computed hphase _ => cases hphase
  | received hphase _ _ => cases hphase
  | receiveRaised hphase _ => cases hphase
  | sent hphase _ _ => cases hphase
  | finished hphase _ => cases hphase
  | raised hphase _ _ => cases hphase
  | overflowed hphase _ _ => cases hphase
  | responded hphase => cases hphase
  | respondRaised hphase _ => cases hphase
  | interrupted hphase => cases hphase
  | rejected hphase => cases hphase
  | bareComputed hphase _ => cases hphase
  | bareReceived hphase _ => cases hphase
  | bareReceiveRaised hphase _ => cases hphase
  | bareSent hphase _ => cases hphase
  | bareFinished hphase _ => cases hphase
  | bareRaised hphase _ => cases hphase

theorem responseSecured_of_run (htype : scope.type = some "http")
    (hresponse : response.Responds)
    (hrun : MiddlewareRun middleware response app scope requestId history s) :
    ResponseSecured history s :=
  hrun.history_invariant ⟨⟨rfl, rfl⟩, nofun, nofun⟩
    fun _ _ _ _ _ h hstep => h.step htype hresponse hstep

theorem inTry_of_run (htype : scope.type = some "http")
    (hrun : MiddlewareRun middleware response app scope requestId history s) :
    InTry middleware scope history s :=
  hrun.history_invariant ⟨nofun, nofun, nofun⟩ fun _ _ _ _ _ h hstep => h.step htype hstep

theorem startsSent_le (h : ResponseSecured history s) (happ : startsByApp history ≤ 1) :
    startsSent history ≤ 1 + interruptions history := by
  have hstarts := h.starts
  cases hphase : s.phase with
  | entered =>
      rw [hphase] at hstarts
      rw [hstarts.1]
      exact Nat.zero_le _
  | limited =>
      rw [hphase] at hstarts
      rw [hstarts.1]
      exact happ.trans (Nat.le_add_right _ _)
  | unlimited =>
      rw [hphase] at hstarts
      exact hstarts.elim
  | rejecting =>
      rw [hphase] at hstarts
      exact (Nat.le_add_right _ _).trans hstarts.2
  | ended =>
      rw [hphase] at hstarts
      exact hstarts.trans (Nat.add_le_add_right (Nat.max_le.mpr ⟨Nat.le_refl 1, happ⟩) _)

theorem interruptions_eq_zero (h : ∀ out, .interrupted out ∉ history) :
    interruptions history = 0 := by
  rw [interruptions, List.countP_eq_zero]
  intro e he hyes
  cases e with
  | interrupted out => exact h out he
  | _ => cases hyes

/-- A `ValueError` of the server that interrupts the first answer is followed by a second
start. -/
theorem startsSent_of_interrupted (htype : scope.type = some "http")
    (hresponse : response.Responds)
    (hrefusal : middleware.refusal scope = some "request_body_too_large") :
    ∃ (history : List (MiddlewareEvent ε)) (s : MiddlewareState ε σ),
      MiddlewareRun middleware response app scope requestId history s ∧
        startsSent history = 2 := by
  obtain ⟨first, left, hfirst, hfirstStart, -, -⟩ := hresponse 413 "request_body_too_large"
    "Request body is invalid or exceeds the configured limit."
    [("Cache-Control", "no-store"), ("X-Content-Type-Options", "nosniff")]
  obtain ⟨second, left', hsecond, hsecondStart, -, -⟩ := hresponse 400 "invalid_content_length"
    "Request body is invalid or exceeds the configured limit."
    [("Cache-Control", "no-store"), ("X-Content-Type-Options", "nosniff")]
  refine ⟨[.responded second, .interrupted first, .refused "request_body_too_large"], _,
    ((Run.start.next (.refused rfl htype hrefusal)).next
      (.interrupted (congrArg _ hfirst))).next (.responded (congrArg _ hsecond)), ?_⟩
  change [second, first].countP ASGIMessage.isStart = 2
  rw [List.countP_cons_of_pos hsecondStart, List.countP_cons_of_pos hfirstStart]
  rfl

/-- Whatever the application does with an HTTP call and the server sends it: the body it
gets fits the limit, and no part of it comes once the limit is exceeded; it does not run
where the last `Content-Length` is refused; otherwise it runs, and gets the messages of the
server while they fit; and every response that is started is a secured one.  At most one is,
unless the server raises `ValueError` for a message of the answer to a length that is too
large. -/
theorem securityMiddleware_limits (htype : scope.type = some "http")
    (hresponse : response.Responds)
    (hrun : MiddlewareRun middleware response app scope requestId history s) :
    bodyBytes (returnedMessages history) ≤ middleware.maxBodyBytes ∧
      (∀ newer older, history = newer ++ older →
        middleware.maxBodyBytes < bodyBytes (pulledMessages older) →
          ∀ m ∈ returnedMessages newer, m.isRequest = false) ∧
      (¬middleware.Admits scope → ∀ e ∈ history, e.ofApp = false) ∧
      (middleware.Admits scope →
        (∀ newer e, history = newer ++ [e] → e = .called) ∧
          (bodyBytes (pulledMessages history) ≤ middleware.maxBodyBytes →
            returnedMessages history = pulledMessages history)) ∧
      (startsByApp history ≤ 1 → (∀ out, .interrupted out ∉ history) →
        startsSent history ≤ 1) ∧
      (∀ out, .interrupted out ∈ history →
        middleware.refusal scope = some "request_body_too_large") ∧
      ∀ out ∈ outgoingMessages history, out.isStart = true → out.IsSecured := by
  have hlimited := bodyLimited_of_run htype hrun
  have hsecured := responseSecured_of_run htype hresponse hrun
  refine ⟨hlimited.bounded, ?_, ?_, ?_, ?_, (inTry_of_run htype hrun).interrupted,
    hsecured.secured⟩
  · rintro newer older rfl
    exact isRequest_of_exceeded htype hrun
  · intro hrefused
    rw [← SecurityMiddleware.refusal_eq_none_iff] at hrefused
    obtain ⟨code, hcode⟩ := Option.ne_none_iff_exists'.mp hrefused
    exact (appUntouched_of_run htype hcode hrun).events
  · intro hadmitted
    refine ⟨?_, ?_⟩
    · rintro newer e rfl
      exact called_of_run (SecurityMiddleware.refusal_eq_none_iff.mpr hadmitted) hrun
    · intro hfits
      rw [← hlimited.consumed] at hfits
      exact hlimited.unchanged hfits
  · intro happ hnone
    have hle := startsSent_le hsecured happ
    rwa [interruptions_eq_zero hnone] at hle

/-- A response of one start and one body, as the library sends it for this content. -/
def Sample.jsonResponse : JSONResponse (Option ℕ) := fun status code message headers =>
  let body := bytes ("\x7b\"error\":\x7b\"code\":\"" ++ code ++ "\",\"message\":\"" ++ message ++
    "\"\x7d\x7d")
  [⟨some "http.response.start", none,
      some (headers.map encodeHeader ++
        [(bytes "content-length", bytes (toString body.length)),
          (bytes "content-type", bytes "application/json")]), some status⟩,
    ⟨some "http.response.body", some body, none, none⟩]

/-- An application that receives once, and raises what `receive` raises. -/
def Sample.uploadApp :
    ASGIApp (Option ℕ) Unit (Option (Except ASGIException (ASGIMessage (Option ℕ)))) where
  start _ := none
  next state action :=
    action =
      match state with
      | none => .receive some
      | some (.error exception) => .raise exception
      | some (.ok _) => .finish

def Sample.uploadScope : ASGIScope Unit where
  type := some "http"
  headers := some [(bytes "host", bytes "gateway")]
  requestId := none
  rest := ()

/-- A body that is one byte too long and was not announced. -/
theorem securityMiddleware_limits_upload :
    ∃ (history : List (MiddlewareEvent (Option ℕ)))
      (s : MiddlewareState (Option ℕ) (Option (Except ASGIException (ASGIMessage (Option ℕ))))),
      MiddlewareRun ⟨1024, Nat.le_refl _⟩ Sample.jsonResponse Sample.uploadApp
          Sample.uploadScope "id" history s ∧
        bodyBytes (pulledMessages history) = 1025 ∧
        bodyBytes (returnedMessages history) ≤ 1024 ∧ startsSent history ≤ 1 := by
  have hresponds : Sample.jsonResponse.Responds := by
    intro status code message headers
    refine ⟨_, _, rfl, rfl, ?_, ?_⟩
    · intro header hmem
      exact List.mem_append_left _ (List.mem_map_of_mem hmem)
    · simp [ASGIMessage.isStart]
  obtain ⟨body, hlength⟩ : ∃ body : List UInt8, body.length = 1025 :=
    ⟨List.replicate 1025 0, List.length_replicate⟩
  have hlimit : SecurityMiddleware.limitedReceive ⟨1024, Nat.le_refl _⟩ 0
      (⟨some "http.request", some body, none, none⟩ : ASGIMessage (Option ℕ)) =
        (1025, .error .requestBodyTooLarge) := by
    simp [SecurityMiddleware.limitedReceive, ASGIMessage.isRequest, hlength]
  have hrun : MiddlewareRun ⟨1024, Nat.le_refl _⟩ Sample.jsonResponse Sample.uploadApp
      Sample.uploadScope "id"
      [.responded _, .refused "request_body_too_large",
        .received ⟨some "http.request", some body, none, none⟩
          (.error .requestBodyTooLarge), .called] _ :=
    (((Run.start.next
      (.called rfl rfl rfl)).next
      (.received rfl rfl hlimit)).next
      (.overflowed rfl rfl rfl)).next
      (.responded rfl)
  obtain ⟨hbounded, -, -, -, hstarts, -, -⟩ := securityMiddleware_limits rfl hresponds hrun
  exact ⟨_, _, hrun, hlength, hbounded, hstarts (Nat.zero_le 1) (by simp)⟩

end Limit

end OrbiGateway
