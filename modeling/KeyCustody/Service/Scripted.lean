import KeyCustody.Custody
import KeyCustody.Service.Answer
import KeyCustody.Text.Hex

namespace KeyCustody.Service.Scripted

/-! # A provider given as data

For each operation there is a queue of responses, used in order. Where a queue is empty
the provider answers as one that holds no keys and that grants everything. -/

inductive Response where
  | refused (cause : ProviderError)
  | unreachable (reason : String)
  /-- A page of `count` tagged keys, numbered after a common start. -/
  | page (count : Nat) (idStart : String) (total : Option Nat)
  | body (octets : Bytes)
  | object (answer : ObjectAnswer)

structure State where
  queues : List (String × List Response)
  createdKeys : Nat
  tokens : Nat
  clock : Instant

/-- The name of the operation that a call is for. -/
def operation : Call → String
  | .tagPage _ => "list_kms_by_tags"
  | .listKeys _ => "list_keys"
  | .setRotation .on _ _ => "enable_key_rotation"
  | .setRotation .off _ _ => "disable_key_rotation"
  | .setKey .on _ _ => "enable_key"
  | .setKey .off _ _ => "disable_key"
  | .createKey _ => "create_key"
  | .listAliases => "list_aliases"
  | .createAlias _ _ => "create_alias"
  | .getObject _ => "get_object"

/-- Takes the next response of an operation out of its queue. -/
def takeFrom (name : String) :
    List (String × List Response) → Option Response × List (String × List Response)
  | [] => (none, [])
  | (other, queue) :: rest =>
      if other = name then
        match queue with
        | [] => (none, (other, []) :: rest)
        | response :: later => (some response, (other, later) :: rest)
      else
        let (found, rest) := takeFrom name rest
        (found, (other, queue) :: rest)

def numberedKeys (count : Nat) (idStart : String) : List TaggedKey :=
  (List.range count).map fun index =>
    ⟨idStart ++ toString index, [⟨"n", toString index⟩]⟩

/-- Reads a body, which has to be JSON of the right shape. -/
def readBody (read : Json.Reader α) (octets : Bytes) : Except Error α :=
  (read.run octets).mapError .unreadable

/-- The reply to a call whose body is read by `read`. -/
def replyWith (read : Json.Reader α) : Response → Except Error α
  | .refused cause => .error (.provider cause)
  | .unreachable reason => .error (.transport reason)
  | .body octets => readBody read octets
  | _ => readBody read []

/-- The reply to a call that gives nothing back. -/
def replyDone : Response → Except Error Unit
  | .refused cause => .error (.provider cause)
  | .unreachable reason => .error (.transport reason)
  | _ => .ok ()

def replyPage : Response → Except Error TagPage
  | .page count idStart total => .ok ⟨numberedKeys count idStart, total⟩
  | other => replyWith TagPage.reader other

def replyObject : Response → Except Error ObjectAnswer
  | .object answer => .ok answer
  | .refused cause => .error (.provider cause)
  | .unreachable reason => .error (.transport reason)
  | _ => .ok ⟨200, [], none, none⟩

/-- The reply to a call, given the response in its queue and the number of keys created. -/
def reply (createdKeys : Nat) (response : Option Response) :
    (call : Call) → Except Error call.Reply
  | .tagPage _ => response.elim (.ok ⟨[], none⟩) replyPage
  | .listKeys _ => response.elim (.ok []) (replyWith keyListingReader)
  | .setRotation _ _ _ => response.elim (.ok ()) replyDone
  | .setKey .on keyId _ => response.elim (.ok ⟨keyId, "2"⟩) (replyWith keyStatusReader)
  | .setKey .off keyId _ => response.elim (.ok ⟨keyId, "3"⟩) (replyWith keyStatusReader)
  | .createKey _ =>
      response.elim (.ok ⟨"new-" ++ toString createdKeys, ""⟩) (replyWith createdKeyReader)
  | .listAliases => response.elim (.ok ⟨[]⟩) (replyWith AliasListing.wrappedReader)
  | .createAlias _ _ => response.elim (.ok ()) replyDone
  | .getObject _ => response.elim (.ok ⟨200, Text.octets "\x7b\x7d", none, none⟩) replyObject

def isCreation : Call → Bool
  | .createKey _ => true
  | _ => false

/-- Thirty-two lowercase hexadecimal digits of a number below `2 ^ 128`. -/
def hexToken (number : Nat) : String :=
  String.ofList
    ((List.range 32).map fun place => Text.Hex.digit (number / Nat.pow 16 (31 - place) % 16))

/-- A host with a clock that only sleeping moves, and with tokens that count up. -/
def hostReply (clock : Instant) (tokens : Nat) :
    (request : Ambient) → request.Reply × Instant × Nat
  | .now => (clock, clock, tokens)
  | .sleep milliseconds => ((), clock + (milliseconds : Int) * 1000000, tokens)
  | .token => (hexToken tokens, clock, tokens + 1)
  | .note _ => ((), clock, tokens)
  | .print _ => ((), clock, tokens)

/-- The world of a scripted provider. -/
def world : World Question Question.Reply State where
  reply
    | .call asked, state =>
        let (response, queues) := takeFrom (operation asked) state.queues
        let createdKeys := state.createdKeys + if isCreation asked then 1 else 0
        (Scripted.reply createdKeys response asked, { state with queues, createdKeys })
    | .host request, state =>
        let (answer, clock, tokens) := hostReply state.clock state.tokens request
        (answer, { state with clock, tokens })

end KeyCustody.Service.Scripted
