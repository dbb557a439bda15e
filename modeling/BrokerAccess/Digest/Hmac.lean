import BrokerAccess.Digest.Sha512

/-!
# HMAC with SHA-512

The keyed digest of RFC 2104: a key longer than a block is digested first, then
filled with zeros to a block, and masked in two ways for an inner and an outer digest.
-/

namespace BrokerAccess.Hmac

/-- The key as one block. -/
def keyBlock (key : List UInt8) : List UInt8 :=
  let short := if key.length > Sha512.blockBytes then Sha512.digest key else key
  short ++ List.replicate (Sha512.blockBytes - short.length) 0

/-- The keyed digest of a message. -/
def code (key message : List UInt8) : List UInt8 :=
  let block := keyBlock key
  Sha512.digest (block.map (· ^^^ 0x5c) ++
    Sha512.digest (block.map (· ^^^ 0x36) ++ message))

end BrokerAccess.Hmac
