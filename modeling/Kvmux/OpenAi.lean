import Mathlib.Data.List.Basic
import Kvmux.Json

namespace Kvmux.OpenAi

inductive ErrorKind where
  | invalidRequest
  | unknownModel
  | notFound
  | admission
  | upstreamFailure
  | noBackend
  | upstreamTimeout
  deriving DecidableEq, Repr

def statusCode : ErrorKind → Nat
  | .invalidRequest => 400
  | .unknownModel | .notFound => 404
  | .admission => 429
  | .upstreamFailure => 502
  | .noBackend => 503
  | .upstreamTimeout => 504

def errorType : ErrorKind → String
  | .invalidRequest => "invalid_request_error"
  | .unknownModel => "invalid_request_error"
  | .notFound => "not_found_error"
  | .admission => "rate_limit_error"
  | .upstreamFailure => "upstream_error"
  | .noBackend => "service_unavailable_error"
  | .upstreamTimeout => "timeout_error"

def member (key : String) (value : Json) : Bytes × Json := (text key,value)

def makeError (kind : ErrorKind) (message param : Bytes) : Json :=
  .object [member "error" (.object [
    member "code" (.integer (statusCode kind)),
    member "message" (.string message),
    member "param" (if param = [] then .null else .string param),
    member "type" (.string (text (errorType kind)))])]

def upstreamError (message : Bytes) (httpStatus : Nat) : Json :=
  .object [member "error" (.object [
    member "code" (.integer httpStatus),
    member "message" (.string message),
    member "param" .null,
    member "type" (.string (text "upstream_error"))])]

def wrapUpstreamError (lib : JsonLib) (upstreamBody : Bytes) (httpStatus : Nat) : Json :=
  let raw := upstreamError (if upstreamBody = [] then text "upstream request failed" else upstreamBody) httpStatus
  match lib.parse upstreamBody with
  | some parsed =>
    match parsed.find (text "error") with
    | some (.object fields) => if (Json.object fields).contains (text "message") then parsed else raw
    | some (.string message) => upstreamError message httpStatus
    | _ => raw
  | none => raw

structure RequestError where
  kind : ErrorKind
  message : Bytes
  param : Bytes := []

def RequestError.toJson (e : RequestError) : Json := makeError e.kind e.message e.param

structure ChatMessage where
  role : Bytes
  content : Json

structure ChatCompletionRequest where
  model : Bytes
  messages : List ChatMessage
  stream : Bool := false
  raw : Json

def invalid (message param : String) : RequestError := ⟨.invalidRequest,text message,text param⟩

def parseMessage (m : Json) : Except RequestError ChatMessage :=
  match m.find (text "role") with
  | some (.string role) => .ok ⟨role,(m.find (text "content")).getD .null⟩
  | _ => .error (invalid "each message requires a string 'role'" "messages")

def ChatCompletionRequest.parse (body : Json) : Except RequestError ChatCompletionRequest :=
  if !body.isObject then .error ⟨.invalidRequest,text "request body must be a JSON object",[]⟩ else
  match body.find (text "model") with
  | some (.string model) =>
    match body.find (text "messages") with
    | some (.array (first :: rest)) => do
      let messages ← (first :: rest).mapM parseMessage
      match body.find (text "stream") with
      | none => .ok {model,messages,raw := body}
      | some (.boolean stream) => .ok {model,messages,stream,raw := body}
      | some _ => .error (invalid "'stream' must be a boolean" "stream")
    | _ => .error (invalid "missing or invalid required field 'messages'" "messages")
  | _ => .error (invalid "missing or invalid required field 'model'" "model")

-- Set on a copy of the client's body before it is forwarded.
def injectIncludeUsage (body : Json) : Json :=
  match body with
  | .object fields =>
    let options := match body.find (text "stream_options") with
      | some (.object options) => options
      | _ => []
    .object (Json.setField (text "stream_options")
      (.object (Json.setField (text "include_usage") (.boolean true) options)) fields)
  | _ => body

theorem makeError_valid (kind : ErrorKind) (message : ValidUtf8 reason) (param : ValidUtf8 name) :
    (makeError kind reason name).Utf8 := by
  unfold makeError
  split
  · simp [member,Json.Utf8,Json.Utf8Fields,text_utf8,message]
  · simp [member,Json.Utf8,Json.Utf8Fields,text_utf8,message,param]

theorem makeError_utf8 (kind : ErrorKind) (message : String) : (makeError kind (text message) []).Utf8 := by
  simp [makeError,member,Json.Utf8,Json.Utf8Fields,text_utf8]

theorem invalid_utf8 (message param : String) : (invalid message param).toJson.Utf8 := by
  unfold RequestError.toJson invalid makeError
  split
  · simp [member,Json.Utf8,Json.Utf8Fields,text_utf8]
  · simp [member,Json.Utf8,Json.Utf8Fields,text_utf8]

theorem upstreamError_utf8 : (upstreamError message httpStatus).Utf8 ↔ ValidUtf8 message := by
  simp [upstreamError,member,Json.Utf8,Json.Utf8Fields,text_utf8]

-- An upstream error is passed through, or its text or the whole body becomes the message.
theorem wrapUpstreamError_cases (lib : JsonLib) (upstreamBody : Bytes) (httpStatus : Nat) :
    (∃ fields, lib.parse upstreamBody = some (wrapUpstreamError lib upstreamBody httpStatus) ∧
      (wrapUpstreamError lib upstreamBody httpStatus).find (text "error") = some (.object fields) ∧
      (Json.object fields).contains (text "message") = true) ∨
    (∃ parsed message, lib.parse upstreamBody = some parsed ∧ parsed.find (text "error") = some (.string message) ∧
      wrapUpstreamError lib upstreamBody httpStatus = upstreamError message httpStatus) ∨
    wrapUpstreamError lib upstreamBody httpStatus =
      upstreamError (if upstreamBody = [] then text "upstream request failed" else upstreamBody) httpStatus := by
  unfold wrapUpstreamError
  dsimp only
  generalize upstreamError (if upstreamBody = [] then text "upstream request failed" else upstreamBody) httpStatus = raw
  split
  · rename_i parsed accepted
    split
    · rename_i fields found
      split
      · rename_i present
        exact .inl ⟨fields,accepted,found,present⟩
      · exact .inr (.inr rfl)
    · rename_i message found
      exact .inr (.inl ⟨parsed,message,accepted,found,rfl⟩)
    · exact .inr (.inr rfl)
  · exact .inr (.inr rfl)

-- A body with an error of its own that is passed on.
def CarriesError (lib : JsonLib) (upstreamBody : Bytes) : Prop :=
  ∃ parsed, lib.parse upstreamBody = some parsed ∧
    ((∃ fields, parsed.find (text "error") = some (.object fields) ∧ (Json.object fields).contains (text "message") = true) ∨
      ∃ message, parsed.find (text "error") = some (.string message))

-- What the parser made of a body can be written; a body that is passed on raw can be
-- written if it is valid itself.
theorem wrapUpstreamError_utf8 (parses : ∀ bytes value, lib.parse bytes = some value → value.Utf8) :
    (wrapUpstreamError lib upstreamBody httpStatus).Utf8 ↔ CarriesError lib upstreamBody ∨ ValidUtf8 upstreamBody := by
  constructor
  · intro written
    rcases wrapUpstreamError_cases lib upstreamBody httpStatus with
      ⟨fields,accepted,found,present⟩ | ⟨parsed,message,accepted,found,-⟩ | shown
    · exact .inl ⟨_,accepted,.inl ⟨fields,found,present⟩⟩
    · exact .inl ⟨parsed,accepted,.inr ⟨message,found⟩⟩
    · rw [shown,upstreamError_utf8] at written
      split at written
      · rename_i empty
        rw [empty]
        exact .inr (text_utf8 "")
      · exact .inr written
  · rintro (⟨parsed,accepted,⟨fields,found,present⟩ | ⟨message,found⟩⟩ | valid)
    · simpa [wrapUpstreamError,accepted,found,present] using parses _ _ accepted
    · have valid : ValidUtf8 message := Json.find_utf8 (parses _ _ accepted) found
      simpa [wrapUpstreamError,accepted,found,upstreamError_utf8] using valid
    · rcases wrapUpstreamError_cases lib upstreamBody httpStatus with
        ⟨_,accepted,-⟩ | ⟨parsed,message,accepted,found,shown⟩ | shown
      · exact parses _ _ accepted
      · rw [shown,upstreamError_utf8]
        exact Json.find_utf8 (parses _ _ accepted) found
      · rw [shown,upstreamError_utf8]
        split
        · exact text_utf8 _
        · exact valid

theorem injectIncludeUsage_utf8 (valid : body.Utf8) : (injectIncludeUsage body).Utf8 := by
  cases body with
  | object fields =>
    unfold injectIncludeUsage
    refine Json.setField_utf8 (text_utf8 _) (Json.setField_utf8 (text_utf8 _) trivial ?_) valid
    split
    · rename_i options found
      exact Json.find_utf8 (show (Json.object fields).Utf8 from valid) found
    · trivial
  | _ => exact valid

section Injection
variable {body : Json}

theorem injectIncludeUsage_object (body : Json) : (injectIncludeUsage body).isObject = body.isObject := by
  cases body <;> rfl

theorem injectIncludeUsage_find (other : key ≠ text "stream_options") : (injectIncludeUsage body).find key = body.find key := by
  cases body with
  | object fields => exact Json.find_setField_other other _ fields
  | _ => rfl

-- Of the stream options all but include_usage are the client's.
theorem injectIncludeUsage_options (accepted : body.isObject = true) :
    ∃ options, (injectIncludeUsage body).find (text "stream_options") = some (.object options) ∧
      (Json.object options).find (text "include_usage") = some (.boolean true) ∧
      ∀ key, key ≠ text "include_usage" →
        (Json.object options).find key = (body.find (text "stream_options")).bind (Json.find key) := by
  cases body with
  | object fields =>
    refine ⟨_,Json.find_setField _ _ fields,Json.find_setField _ _ _,fun key other => ?_⟩
    rw [Json.find_setField_other other]
    cases given : (Json.object fields).find (text "stream_options") with
    | none => rfl
    | some options =>
      cases options with
      | object options => rfl
      | _ => rfl
  | _ => cases accepted

theorem injectIncludeUsage_again (body : Json) : injectIncludeUsage (injectIncludeUsage body) = injectIncludeUsage body := by
  cases body with
  | object fields =>
    simp only [injectIncludeUsage,Json.find_setField,Json.setField_again]
  | _ => rfl

-- The request that the backend reads is the client's, but for the stream options.
theorem parse_injected (body : Json) : ChatCompletionRequest.parse (injectIncludeUsage body) =
    (ChatCompletionRequest.parse body).map fun creq => {creq with raw := injectIncludeUsage body} := by
  have model : (injectIncludeUsage body).find (text "model") = body.find (text "model") := injectIncludeUsage_find (by decide +kernel)
  have messages : (injectIncludeUsage body).find (text "messages") = body.find (text "messages") :=
    injectIncludeUsage_find (by decide +kernel)
  have stream : (injectIncludeUsage body).find (text "stream") = body.find (text "stream") :=
    injectIncludeUsage_find (by decide +kernel)
  unfold ChatCompletionRequest.parse
  rw [injectIncludeUsage_object,model,messages,stream]
  split
  · rfl
  · split
    · split
      · rename_i first rest _
        cases (first :: rest).mapM parseMessage with
        | error e => rfl
        | ok messages =>
          dsimp only [bind,Except.bind]
          split <;> rfl
      · rfl
    · rfl

end Injection

-- A message is refused for its role, or keeps a part of the body.
theorem parseMessage_cases (m : Json) :
    (∃ message param, parseMessage m = .error (invalid message param)) ∨
    ∃ message, parseMessage m = .ok message ∧ (m.Utf8 → message.content.Utf8) := by
  unfold parseMessage
  split
  · refine .inr ⟨_,rfl,fun valid => ?_⟩
    dsimp only
    cases found : m.find (text "content") with
    | none => trivial
    | some content => exact Json.find_utf8 valid found
  · exact .inl ⟨_,_,rfl⟩

theorem messages_cases (items : List Json) :
    (∃ message param, items.mapM parseMessage = .error (invalid message param)) ∨
    ∃ messages, items.mapM parseMessage = .ok messages ∧
      (Json.Utf8Items items → ∀ message ∈ messages, message.content.Utf8) := by
  induction items with
  | nil => exact .inr ⟨[],rfl,by simp⟩
  | cons m rest ih =>
    rw [List.mapM_cons]
    obtain ⟨message,param,refused⟩ | ⟨message,parsed,own⟩ := parseMessage_cases m
    · rw [refused]
      exact .inl ⟨message,param,rfl⟩
    · rw [parsed]
      obtain ⟨reason,param,refused⟩ | ⟨messages,done,others⟩ := ih
      · rw [refused]
        exact .inl ⟨reason,param,rfl⟩
      · rw [done]
        exact .inr ⟨message :: messages,rfl,fun valid => List.forall_mem_cons.mpr ⟨own valid.1,others valid.2⟩⟩

theorem parse_cases (body : Json) :
    (∃ message param, ChatCompletionRequest.parse body = .error (invalid message param)) ∨
    ∃ creq, ChatCompletionRequest.parse body = .ok creq ∧ creq.raw = body ∧
      (body.Utf8 → ∀ message ∈ creq.messages, message.content.Utf8) := by
  unfold ChatCompletionRequest.parse
  split
  · exact .inl ⟨_,"",rfl⟩
  · split
    · split
      · rename_i first rest listed
        obtain ⟨reason,param,refused⟩ | ⟨messages,done,contents⟩ := messages_cases (first :: rest)
        · rw [refused]
          exact .inl ⟨reason,param,rfl⟩
        · rw [done]
          have valid : body.Utf8 → ∀ message ∈ messages, message.content.Utf8 :=
            fun valid => contents (Json.find_utf8 valid listed)
          dsimp only [bind,Except.bind]
          split
          · exact .inr ⟨_,rfl,rfl,valid⟩
          · exact .inr ⟨_,rfl,rfl,valid⟩
          · exact .inl ⟨_,_,rfl⟩
      · exact .inl ⟨_,_,rfl⟩
    · exact .inl ⟨_,_,rfl⟩

-- Whatever a request is rejected for, the error can be serialised.
theorem parse_error_utf8 (failed : ChatCompletionRequest.parse body = .error e) : e.toJson.Utf8 := by
  obtain ⟨message,param,refused⟩ | ⟨creq,parsed,-⟩ := parse_cases body
  · cases refused.symm.trans failed
    exact invalid_utf8 message param
  · cases parsed.symm.trans failed

theorem parsed_utf8 (parsed : ChatCompletionRequest.parse body = .ok creq) (valid : body.Utf8) :
    creq.raw.Utf8 ∧ ∀ message ∈ creq.messages, message.content.Utf8 := by
  obtain ⟨message,param,refused⟩ | ⟨found,same,raw,contents⟩ := parse_cases body
  · cases refused.symm.trans parsed
  · cases same.symm.trans parsed
    exact ⟨raw ▸ valid,contents valid⟩

theorem parsed_model (parsed : ChatCompletionRequest.parse body = .ok creq) :
    body.find (text "model") = some (.string creq.model) := by
  unfold ChatCompletionRequest.parse at parsed
  split at parsed
  · cases parsed
  · split at parsed
    · rename_i model found
      split at parsed
      · rename_i first rest _
        cases listed : (first :: rest).mapM parseMessage with
        | error e => rw [listed] at parsed; cases parsed
        | ok messages =>
          rw [listed] at parsed
          dsimp only [bind,Except.bind] at parsed
          split at parsed
          · cases parsed; exact found
          · cases parsed; exact found
          · cases parsed
      · cases parsed
    · cases parsed

end Kvmux.OpenAi
