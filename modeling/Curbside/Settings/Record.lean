import Curbside.Settings.Basic

/-! The written record of settings. -/

namespace Curbside

namespace Quantity

def encode : Quantity → Json
  | whole n => .int n
  | measured x => .float x

end Quantity

namespace Settings

def encode (settings : Settings) : Json :=
  .object [("timezone", .string settings.timezone),
    ("warning_lead_minutes", settings.warningLead.encode),
    ("confirmation_threshold", .float settings.confirmationThreshold),
    ("default_currency", .string settings.defaultCurrency),
    ("pricing_cache_ttl_seconds", .int settings.cacheSeconds),
    ("request_timeout_seconds", .float settings.requestTimeout),
    ("fine_catalog_path", .orNull .string settings.catalogPath)]

end Settings

end Curbside
