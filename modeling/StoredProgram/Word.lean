set_option autoImplicit false

namespace StoredProgram

def wordCount : Nat := 0x10000000000000000

end StoredProgram
