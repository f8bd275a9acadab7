import Mpsystemd.Python

/-! Parsing of the socket addresses systemd hands out. -/

namespace Mpsystemd

def sunPathSize : Nat := 108

/-- The `sun_path` content of a socket address: an abstract address starts with
its NUL, a filesystem address does not include its terminator. -/
def encodeUnixAddress (address : StrOrBytes) : Except PyErr Bytes := do
  let raw ← address.encode
  if raw = [] then throw (.addressError "socket address is empty" [])
  let raw := if raw.take 1 = bytes "@" then 0 :: raw.drop 1 else raw
  if raw.take 1 = [0] then
    if raw.length > sunPathSize then
      throw (.addressError "abstract socket name is longer than %d bytes" [.int (sunPathSize - 1)])
    return raw
  else if raw.take 1 ≠ bytes "/" then
    if bytes "vsock:" <+: raw ∨ bytes "vsock-" <+: raw then
      throw (.addressError "AF_VSOCK socket addresses are not supported" [])
    throw (.addressError "socket address must be absolute or abstract: %r" [.bytes raw])
  else
    if raw.length > sunPathSize - 1 then
      throw (.addressError "socket path is longer than %d bytes" [.int (sunPathSize - 1)])
    return raw

end Mpsystemd
