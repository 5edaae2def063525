import Curbside.Scan.Record
import Curbside.Tariff.Record

/-! What can be asked of the service, and the records of the questions. -/

namespace Curbside.Service

/-- A text to read, and how well it could be recognized. -/
structure ExtractRequest where
  text : String
  quality : Option Binary64

structure ExtractResponse where
  rules : List Rule
  requiresConfirmation : Bool

structure ConfirmRequest where
  rules : List Rule
  minutes : Int

/-- Rules and a moment at which they are looked at. -/
structure EvaluateRequest where
  rules : List Rule
  moment : Moment

/-- A stay to be priced by tiers that are given or found at a place on the network. -/
structure CostRequest where
  tiers : List Tier
  url : Option String
  start : Moment
  minutes : Int

structure ScanRequest where
  text : String
  quality : Option Binary64
  moment : Moment

def encodeRules (rules : List Rule) : Json := .array (rules.map Rule.encode)

/-- The quality of a text from a member, if it is there. -/
def decodeQuality (members : List (String × Json)) : Checked (Option Binary64) :=
  Decoder.optional members "ocr_confidence" none (Decoder.nullable Decoder.share)

namespace ExtractRequest

def encode (request : ExtractRequest) : Json :=
  .object [("text", .string request.text), ("ocr_confidence", .orNull .ofBinary64 request.quality)]

def decode : Decoder ExtractRequest :=
  Decoder.record "ExtractRequest" fun members =>
    ExtractRequest.mk
      <$> Decoder.required members "text" Decoder.string
      <*> decodeQuality members

end ExtractRequest

namespace ExtractResponse

def encode (response : ExtractResponse) : Json :=
  .object [("rules", encodeRules response.rules),
    ("requires_confirmation", .bool response.requiresConfirmation)]

def decode : Decoder ExtractResponse :=
  Decoder.record "ExtractResponse" fun members =>
    ExtractResponse.mk
      <$> Decoder.required members "rules" (Decoder.list Rule.decode)
      <*> Decoder.required members "requires_confirmation" Decoder.boolean

end ExtractResponse

namespace ConfirmRequest

def encode (request : ConfirmRequest) : Json :=
  .object [("rules", encodeRules request.rules), ("duration_minutes", .int request.minutes)]

def decode : Decoder ConfirmRequest :=
  Decoder.record "ConfirmRequest" fun members =>
    ConfirmRequest.mk
      <$> Decoder.required members "rules" (Decoder.list Rule.decode)
      <*> Decoder.required members "duration_minutes" Decoder.positive

end ConfirmRequest

namespace EvaluateRequest

def encode (request : EvaluateRequest) : Json :=
  .object [("rules", encodeRules request.rules), ("at", request.moment.encode)]

def decode : Decoder EvaluateRequest :=
  Decoder.record "EvaluateRequest" fun members =>
    EvaluateRequest.mk
      <$> Decoder.required members "rules" (Decoder.list Rule.decode)
      <*> Decoder.required members "at" Decoder.moment

end EvaluateRequest

namespace CostRequest

def encode (request : CostRequest) : Json :=
  .object [("tiers", .array (request.tiers.map Tier.encode)),
    ("pricing_url", .orNull .string request.url), ("start", request.start.encode),
    ("duration_minutes", .int request.minutes)]

def decode : Decoder CostRequest :=
  Decoder.record "CostRequest" fun members =>
    CostRequest.mk
      <$> Decoder.optional members "tiers" [] (Decoder.list Tier.decode)
      <*> Decoder.optional members "pricing_url" none (Decoder.nullable Decoder.string)
      <*> Decoder.required members "start" Decoder.moment
      <*> Decoder.required members "duration_minutes" fun value =>
        (Decoder.integer value).andThen (Decoder.atLeast 0)

end CostRequest

namespace ScanRequest

def encode (request : ScanRequest) : Json :=
  .object [("text", .string request.text), ("ocr_confidence", .orNull .ofBinary64 request.quality),
    ("at", request.moment.encode)]

def decode : Decoder ScanRequest :=
  Decoder.record "ScanRequest" fun members =>
    ScanRequest.mk
      <$> Decoder.required members "text" Decoder.string
      <*> decodeQuality members
      <*> Decoder.required members "at" Decoder.moment

end ScanRequest

end Curbside.Service
