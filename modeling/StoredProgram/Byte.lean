set_option autoImplicit false

namespace StoredProgram

abbrev Byte := UInt8

end StoredProgram
