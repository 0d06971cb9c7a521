import ServiceContract.Document.Reference

/-!
# Contents of requests and responses

The success response of an operation is the one whose status is the least, as a text, among those
that start with a `2`. Of a content map the first media type counts.

## Main definitions

* `successContent`: the content of the success response.
* `firstMedia`: the first media type of a content map.
* `requestBody`: the media type, the schema and the required flag of the request body.
-/

namespace ServiceContract

/-! ### Responses -/

/-- The response that a status in a list of responses leads to: the item at that position. -/
def responseAt (responses : List Node) (status : Node) : Except Fault Node :=
  match status with
  | .leaf _ (.int i) =>
    match responses[i.toNat]? with
    | some response => .ok response
    | none => .error .malformed
  | _ => .error .malformed

/-- A status with the response that it leads to. -/
def statusText (status : Value) (response : Except Fault Node) :
    Except Fault (String × Except Fault Node) := do
  return (← status.plainText, response)

/-- The statuses of an operation with the responses that they lead to. -/
def statuses (responses : Node) : Except Fault (List (String × Except Fault Node)) :=
  match responses with
  | .map _ _ => do (← responses.entries).mapM fun e => statusText (.scalar e.1) (.ok e.2)
  | .list _ _ => do
    let items ← responses.items
    items.mapM fun n => statusText n.toValue (responseAt items n)
  | n => do (← n.items).mapM fun c => statusText c.toValue (.error .malformed)

/-- Whether a status stands for success. -/
def isSuccess (status : String) : Bool :=
  status.toList.head? == some '2'

/-- Whether a text comes before another one in the order of code points. -/
def comesBefore (s t : String) : Bool :=
  decide (Text.codePoints s.toList < Text.codePoints t.toList)

/-- The entry with the least status, the first one of several. -/
def leastStatus {α : Type} : List (String × α) → Option (String × α)
  | [] => none
  | e :: es =>
    match leastStatus es with
    | none => some e
    | some f => if comesBefore f.1 e.1 then some f else some e

/-- The content of the success response, none if there is no such response or if it has no
content. -/
def successContent (doc : Document) (operation : Node) : Except Fault (Option Node) := do
  let responses ← operation.get "responses"
  if !responses.isTruthy then return none
  else
    match leastStatus ((← statuses responses).filter fun e => isSuccess e.1) with
    | none => return none
    | some (_, response) =>
      let response ← doc.follow (← response).orEmpty
      let content ← response.get "content"
      return if content.isTruthy then some content else none

/-! ### Media types -/

/-- The first media type of a content map with its description, which is empty if it is absent. -/
def firstMedia (content : Option Node) : Except Fault (Option (Scalar × Node)) := do
  match content with
  | none => return none
  | some content =>
    match ← content.entriesIfAny with
    | [] => return none
    | (mediaType, media) :: _ => return some (mediaType, media.orEmpty)

/-- The media type, the schema and the required flag of the request body, if the operation has
one. -/
def requestBody (doc : Document) (operation : Node) :
    Except Fault (Option (Scalar × Node × Bool)) := do
  let body ← operation.get "requestBody"
  if !body.isTruthy then return none
  else
    let body ← doc.follow body
    match ← firstMedia (some (← body.get "content")) with
    | none => return none
    | some (mediaType, media) =>
      let schema ← media.get "schema"
      if schema.isNull then return none
      else return some (mediaType, schema, (← body.get "required").isTruthy)

end ServiceContract
