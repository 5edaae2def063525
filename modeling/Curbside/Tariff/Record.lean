import Curbside.Tariff.Cost

/-! The written records of money and costs. -/

namespace Curbside

namespace Money

def encode (money : Money) : Json :=
  .object [("amount", money.amount.encode), ("currency", .string money.currency)]

def decode : Decoder Money :=
  Decoder.record "Money" fun members =>
    Money.mk
      <$> Decoder.required members "amount" Decoder.decimal
      <*> Decoder.required members "currency" Decoder.string

end Money

namespace LineItem

def encode (item : LineItem) : Json :=
  .object [("description", .string item.description), ("amount", item.amount.encode)]

def decode : Decoder LineItem :=
  Decoder.record "LineItem" fun members =>
    LineItem.mk
      <$> Decoder.required members "description" Decoder.string
      <*> Decoder.required members "amount" Decoder.decimal

end LineItem

namespace Cost

def encode (cost : Cost) : Json :=
  .object [("total", cost.total.encode), ("breakdown", .array (cost.breakdown.map LineItem.encode))]

def decode : Decoder Cost :=
  Decoder.record "CostBreakdown" fun members =>
    Cost.mk
      <$> Decoder.required members "total" Money.decode
      <*> Decoder.optional members "breakdown" [] (Decoder.list LineItem.decode)

end Cost

end Curbside
