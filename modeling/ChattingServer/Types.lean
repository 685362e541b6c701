import ChattingServer.Foundation.LittleEndian
import ChattingServer.Foundation.Memory

/-!
# Machine types of the server

The fixed-width integers of the sources, under their names.  A `char` is a
`BYTE` that is sign-extended where the code promotes it to `int`.
-/

namespace ChattingServer

abbrev BYTE : Type := BitVec 8
abbrev WCHAR : Type := BitVec 16
abbrev WORD : Type := BitVec 16
abbrev DWORD : Type := BitVec 32
/-- `int` and `LONG` are 32 bits wide. -/
abbrev LONG : Type := BitVec 32
abbrev INT64 : Type := BitVec 64
abbrev UINT64 : Type := BitVec 64

/-- The places of a session's `sendBuf` and `completeSendBuf`. -/
def sendCapacity : Nat := 4096

/-- The places of `redisQ`. -/
def redisCapacity : Nat := 65534

end ChattingServer
