import SignedDocs.Record.Codec

/-!
Content types and encodings.
-/

namespace SignedDocs

structure MediaType where
  description : String
  coapType : Option (Natural32)
deriving DecidableEq

namespace MediaType

def fields : Fields (String × Option (Natural32) × Unit) :=
  .required "description" .text <| .defaulted "coap_type" (.optional .natural32) none .nil

def codec : Codec MediaType :=
  .record "MediaType" fields (fun (d, c, _) => ⟨d, c⟩) (fun m => (m.description, m.coapType, ()))

end MediaType

end SignedDocs
