import SecondFactor.Bytes

/-!
# Keyed digests

HMAC turns a digest into a keyed one: the key, filled to a block, is mixed with two constants and
hashed in front of the message and in front of the first result. A key longer than a block is hashed
first.
-/

namespace SecondFactor.Digest

/-- The keyed digest of a message, for a digest with blocks of `block` bytes. -/
def hmac (digest : Bytes → Bytes) (block : Nat) (key message : Bytes) : Bytes :=
  let short := if block < key.length then digest key else key
  let filled := short ++ List.replicate (block - short.length) 0
  digest (filled.map (· ^^^ 0x5c) ++ digest (filled.map (· ^^^ 0x36) ++ message))

end SecondFactor.Digest
