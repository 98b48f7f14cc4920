/-! Text as bytes, in UTF-8. -/

set_option autoImplicit false

namespace H8.Text

def bytes (text : String) : List UInt8 := text.toUTF8.data.toList

end H8.Text
