import Blockwork.Failure
import Blockwork.Package.Entry
import Blockwork.Service.Url
import Blockwork.Store.Shared

/-!
# Services

What is asked of the service that knows packages and of the one that stores shared programs,
and what is made of their answers. A `Request` is data, and a `Service` has its network as a
function from requests to replies, so that nothing here depends on how requests are sent.
-/

namespace Blockwork

/-- A request to a service. -/
structure Service.Request where
  method : String
  url : Service.Url
  contentType : String := ""
  body : String := ""
deriving DecidableEq

/-- The answer to a request. -/
structure Service.Reply where
  status : Nat
  body : String
deriving DecidableEq

/-- A service: its address, and what comes back for a request, if anything does. -/
structure Service where
  address : String
  send : Service.Request → Option Service.Reply

namespace Service

/-- The address of a resource of a service. -/
def resource (address name : String) : String :=
  String.ofList (Text.dropEndWhile (· == '/') address.toList) ++ "/" ++ name

/-- The address of the shared programs of a service. -/
def programsResource (address : String) : String :=
  resource address "storage"

/-- The text of a reply, without a byte order mark in front. -/
def replyText (body : String) : String :=
  match body.toList with
  | c :: rest => if c.toNat = 0xFEFF then String.ofList rest else body
  | [] => body

/-- What the reply of a resource says. -/
def outcomeOf (resource : String) : Option Reply → Except Failure String
  | none => .error .noReply
  | some reply =>
    if reply.status = 200 then .ok (replyText reply.body)
    else .error (.refused resource reply.status)

/-- Asks a resource for what it knows by a name. -/
def lookupRequest? (resource name : String) : Option Request :=
  (Url.parse? resource).map fun url => { method := "GET", url := url.withPair "name" name }

/-- Sends a resource a form with a single entry. -/
def formRequest? (resource name value : String) : Option Request :=
  (Url.parse? resource).map fun url =>
    { method := "POST"
      url
      contentType := "application/x-www-form-urlencoded"
      body := formPair name value }

/-- Sends a request. A resource whose address cannot be read gets none and gives no reply. -/
def ask (service : Service) (resource : String) (request : Option Request) :
    Except Failure String :=
  outcomeOf resource (request.bind service.send)

/-- The request for the functions of a package. -/
def functionsRequest? (service : Service) (path : String) : Option Request :=
  lookupRequest? (resource service.address "map") path

/-- The request for the structs of a package. -/
def structsRequest? (service : Service) (path : String) : Option Request :=
  lookupRequest? (resource service.address "map_struct") path

/-- The request that submits a program. -/
def submitRequest? (service : Service) (text : String) : Option Request :=
  formRequest? (programsResource service.address) "xml" text

/-- The request for the program under a key. -/
def fetchRequest? (service : Service) (key : String) : Option Request :=
  formRequest? (programsResource service.address) "key" key

/-- A service as a source of entries. -/
def entrySource (service : Service) : EntrySource where
  functions path :=
    service.ask (resource service.address "map") (service.functionsRequest? path)
  structs path :=
    service.ask (resource service.address "map_struct") (service.structsRequest? path)

/-- Submits a program and answers with its key. -/
def submit (service : Service) (text : String) : Except Failure String :=
  (service.ask (programsResource service.address) (service.submitRequest? text)).map Text.trim

/-- Fetches the program under a key. A key without a program is answered by a blank text. -/
def fetch (service : Service) (key : String) : Except Failure String := do
  let text ← service.ask (programsResource service.address) (service.fetchRequest? key)
  if Text.isBlankText text then .error (.noSuchKey key) else .ok (Text.trim text)

instance : SharedPrograms Service where
  submit service text := (service.submit text, service)
  fetch service key := (service.fetch key, service)

end Service

end Blockwork
