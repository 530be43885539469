set_option autoImplicit false

/-! The two words for truth values. -/

namespace Bindery.Text

def truth (value : Bool) : String := if value then "true" else "false"

end Bindery.Text
