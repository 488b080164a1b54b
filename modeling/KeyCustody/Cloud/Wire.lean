import KeyCustody.Custody
import KeyCustody.Http

namespace KeyCustody.Cloud

/-! # Programs that send requests

The same programs one level down: what they ask of the provider is said in requests. -/

inductive Wire.Question where
  | send (request : Http.Request)
  | host (request : Ambient)
  deriving DecidableEq, Repr

abbrev Wire.Question.Reply : Wire.Question → Type
  | .send _ => Http.Answer
  | .host request => request.Reply

abbrev Wire := Dialogue Wire.Question Wire.Question.Reply

namespace Wire

def send (request : Http.Request) : Wire Http.Answer :=
  Dialogue.question (Question.send request)

def host (request : Ambient) : Wire request.Reply :=
  Dialogue.question (Question.host request)

end Wire

end KeyCustody.Cloud
