/-! # Version -/

namespace LinkTrust

def version : String := "0.1.0"

end LinkTrust
