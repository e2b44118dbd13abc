/-!
# Bytes

Byte strings are equal when their bytes are. Which instance decides it is fixed here, so that every
module compares byte strings in the same way, whatever else it imports.
-/

namespace OrderBroker

instance (priority := 2000) decidableEqBytes : DecidableEq ByteArray := ByteArray.instDecidableEq

end OrderBroker
