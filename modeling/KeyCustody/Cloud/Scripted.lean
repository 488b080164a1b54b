import KeyCustody.Cloud.Wire
import KeyCustody.Service.Scripted

namespace KeyCustody.Cloud.Scripted

/-! # A server given as data

One server answers, at one place, and has its answers lined up. When they run out it knows
nothing that it is asked for. What is sent elsewhere gets no answer. -/

structure State where
  answers : List Http.Answer
  clock : Instant
  tokens : Nat

def exhausted : Http.Answer :=
  .whole ⟨404, []⟩ (Text.octets "\x7b\"error_msg\":\"not scripted\"\x7d")

/-- Whether a request goes to the server, which speaks without encryption. -/
def reaches (place : String) (request : Http.Request) : Bool :=
  request.url.scheme == "http" && request.url.hostAndPort? == some place

def world (place : String) : World Wire.Question Wire.Question.Reply State where
  reply
    | .send request, state =>
        if reaches place request then
          match state.answers with
          | [] => (exhausted, state)
          | answer :: later => (answer, { state with answers := later })
        else (.lost, state)
    | .host request, state =>
        let (answer, clock, tokens) := Service.Scripted.hostReply state.clock state.tokens request
        (answer, { state with clock, tokens })

end KeyCustody.Cloud.Scripted
