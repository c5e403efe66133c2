namespace WireSchema.Text

/-! Control characters: the code points U+0000 to U+001F and U+007F to U+009F. -/

def isControl (c : Char) : Bool :=
  c.toNat < 0x20 || (0x7F ≤ c.toNat && c.toNat < 0xA0)

end WireSchema.Text
