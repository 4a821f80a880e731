/-!
# `StoreBench.Number.Power`: powers

Inside the library, a power `x ^ n` of natural numbers or integers is the
one that `omega` and `decide` compute with, in every module and in those
that reason about it with a larger algebra in scope. Field sizes and
scales, such as `2 ^ 64` and `10 ^ places`, are thus the same terms
everywhere.

Which powers are preferred where the types are known is said for the
namespace of the library only. Where the exponent is a bare numeral the
choice falls to the default instances, and these cannot be scoped.
-/

set_option autoImplicit false

namespace StoreBench

attribute [scoped instance (2000)] instPowNat

end StoreBench

attribute [default_instance (20000)] instPowNat
