import RecordStore.Embedded
import RecordStore.Service.Handler
import RecordStore.Service.MediaType
import RecordStore.Service.Target

/-!
# The service over HTTP

Every verb is a path that takes a `POST` with a JSON body; two more paths answer
a `GET`, one of them with the state of the service. A reply is JSON: `status`
zero with the result at `ok`, or the status of an error with its message at
`error` and its symbolic name at `details`, under the HTTP status that the
error's status maps to. A body that is no request of the verb is the caller's
error, whatever is wrong with it.
-/

namespace RecordStore

/-! ### Replies -/

/-- The HTTP status for a status. -/
def Status.http : Status → Nat
  | .ok => 200
  | .client | .param => 400
  | .recordNotFound | .binNotFound | .namespaceNotFound => 404
  | .recordExists | .recordGeneration | .elementExists | .elementNotFound => 409
  | .binIncompatibleType | .opNotApplicable | .geoInvalid => 422

/-- What a reply carries. -/
inductive Body where
  /-- A JSON value. -/
  | json (j : Json)
  /-- Plain text. -/
  | text (s : String)

/-- A reply. -/
structure Response where
  /-- The HTTP status. -/
  http : Nat
  /-- The body. -/
  body : Body

namespace Response

/-- The reply that carries a result. -/
def ok (j : Json) : Response :=
  ⟨Status.ok.http, .json (.ofFields [("status", .integer Status.ok.code), ("ok", j)])⟩

/-- The reply that reports an error. -/
def failure (status : Status) (message : String) : Response :=
  ⟨status.http, .json (.ofFields
    [("status", .integer status.code), ("error", .string message),
      ("details", .string status.name)])⟩

/-- The reply to a body that is no request of its verb. -/
def badRequest : Response := failure .client ""

/-- The reply to a request that was handled. -/
def ofResult : Except Error Json → Response
  | .ok j => ok j
  | .error e => failure e.status e.message

/-- A reply without content. -/
def bare (http : Nat) : Response := ⟨http, .text ""⟩

end Response

/-! ### Routing -/

/-- A request as it arrives. -/
structure HttpRequest where
  /-- The method. -/
  method : String
  /-- The target, which the path is a part of. -/
  target : String
  /-- The media type of the body. -/
  contentType : String := "application/json"
  /-- The body. -/
  body : String

/-- What a path leads to. -/
inductive Route where
  /-- The greeting. -/
  | root
  /-- The state of the service. -/
  | health
  /-- A verb. -/
  | verb (verb : ServiceVerb)

/-- The paths with what they lead to. -/
def routes : List (String × Route) :=
  [("/", .root), ("/health", .health)] ++
    ServiceVerb.table.map fun entry => ("/v1/" ++ entry.1, .verb entry.2)

/-- The greeting. -/
def greeting : String := "AeroKV Server"

namespace Service

/-- The state of the service, which lists the namespaces as the settings do. -/
def health (settings : ServiceSettings) : Json :=
  .ofFields
    [("status", .string "ok"), ("version", .string version),
      ("namespaces", .array (settings.namespaces.map .string))]

/-- The reply of a path that only answers. -/
def answer (method : String) (response : Response) : Response :=
  if method = "GET" then response
  else if method = "HEAD" then .bare response.http
  else .bare 405

/-- **Replies to a request.** -/
def respond (service : Service) (settings : ServiceSettings) (request : HttpRequest)
    (now : UInt64) : Response × Service :=
  match (Target.path? request.target).bind fun path => routes.lookup path with
  | none => (.bare 404, service)
  | some .root => (answer request.method ⟨200, .text greeting⟩, service)
  | some .health => (answer request.method ⟨200, .json (health settings)⟩, service)
  | some (.verb verb) =>
    -- the body is looked at last
    if request.method ≠ "POST" then (.bare 405, service)
    else if !MediaType.isJson request.contentType then (.badRequest, service)
    else
      match Request.ofText? verb request.body with
      | none => (.badRequest, service)
      | some decoded =>
        let answer := service.handle decoded now
        (.ofResult answer.result, answer.state)

end Service

end RecordStore
