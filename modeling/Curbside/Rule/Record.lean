import Curbside.Rule.Basic
import Curbside.Window.Record

/-! The written record of a rule. What a rule is about is a record of its own, told apart by the
name of its kind; a rule is certain only if a person confirmed it. -/

namespace Curbside

namespace Severity

def encode (severity : Severity) : Json := .string severity.name

def decode : Decoder Severity := Decoder.oneOf all name

end Severity

namespace Decimal

/-- Amounts are written as texts, so that no digit is lost. -/
def encode (d : Decimal) : Json := .text d.write

end Decimal

namespace Kind

/-- The fields that only rules of one kind have. -/
def ownFields : Kind → List (String × Json)
  | timeLimit minutes => [("duration_minutes", .int minutes)]
  | permitRequired permit => [("permit_type", .orNull .string permit)]
  | metered paidUntil => [("paid_until", .orNull (fun minute => .int minute.val) paidUntil)]
  | _ => []

/-- The readers of the kinds by the names of their models and kinds. Each takes the fields of
its record. -/
def readers : List (String × String × (List (String × Json) → Checked Kind)) :=
  [("TimeLimit", "time_limit", fun members =>
      timeLimit <$> Decoder.required members "duration_minutes" Decoder.positive),
    ("NoParking", "no_parking", fun _ => .passed noParking),
    ("PermitRequired", "permit_required", fun members =>
      permitRequired <$> Decoder.optional members "permit_type" none
        (Decoder.nullable Decoder.string)),
    ("Metered", "metered", fun members =>
      metered <$> Decoder.optional members "paid_until" none (Decoder.nullable Decoder.minute)),
    ("Free", "free", fun _ => .passed free),
    ("LoadingZone", "loading_zone", fun _ => .passed loadingZone),
    ("StreetCleaning", "street_cleaning", fun _ => .passed streetCleaning),
    ("Unknown", "unknown", fun _ => .passed unknown)]

/-- The reader of the kind that a value names. -/
def reader? : Json → Option (String × String × (List (String × Json) → Checked Kind))
  | .string tag => readers.find? fun (_, name, _) => name == tag
  | _ => none

/-- The severity of a kind, given its name, on which none is stated. -/
def usualSeverityOf (tag : String) : Severity :=
  if tag = free.name || tag = unknown.name then .warning else .ticket

end Kind

namespace Provision

def encode (provision : Provision) : Json :=
  .object ([("type", .string provision.kind.name), ("severity", provision.severity.encode),
    ("fine_amount", .orNull Decimal.encode provision.fine)] ++ provision.kind.ownFields)

/-- The fields of a provision of a known kind. -/
def decodeFields (tag : String) (readKind : List (String × Json) → Checked Kind)
    (members : List (String × Json)) : Checked Provision :=
  (fun severity fine (_ : String) kind => ⟨kind, severity, fine⟩)
    <$> Decoder.optional members "severity" (Kind.usualSeverityOf tag) Severity.decode
    <*> Decoder.optional members "fine_amount" none (Decoder.nullable Decoder.amount)
    <*> Decoder.optional members "type" tag (Decoder.oneOf [tag] id)
    <*> readKind members

/-- A provision from its record. The kind is looked up first, and issues lie below its name. -/
def decode : Decoder Provision
  | .object members =>
    match members.lookup "type" with
    | none => .fault (.noTag "type")
    | some value =>
      match Kind.reader? value with
      | some (_, tag, readKind) => (decodeFields tag readKind members).under (.field tag)
      | none => .fault (.strangeTag "type" (String.ofList value.shown) Kind.names)
  | _ => .fault .notTagged

end Provision

namespace Rule

def encode (rule : Rule) : Json :=
  .object [("kind", rule.provision.encode), ("window", .orNull Window.encode rule.window),
    ("confidence", .ofBinary64 rule.confidence), ("raw_text", .string rule.rawText),
    ("user_confirmed", .bool rule.userConfirmed)]

/-- Whether a rule claims full certainty that no person confirmed. -/
def isOverconfident (rule : Rule) : Bool :=
  let certain := Binary64.ofInt 1
  (rule.confidence == certain || certain.lt rule.confidence) && !rule.userConfirmed

def decode : Decoder Rule :=
  Decoder.record "ParkingRule" fun members =>
    Checked.andThen
      (fun rule => if rule.isOverconfident then .fault .unconfirmedCertainty else .passed rule)
      (Rule.mk
        <$> Decoder.required members "kind" Provision.decode
        <*> Decoder.optional members "window" none (Decoder.nullable Window.decode)
        <*> Decoder.required members "confidence" Decoder.share
        <*> Decoder.required members "raw_text" Decoder.string
        <*> Decoder.optional members "user_confirmed" false Decoder.boolean)

end Rule

end Curbside
