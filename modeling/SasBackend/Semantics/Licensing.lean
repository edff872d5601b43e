/-! Signatures of licence keys, revocation lists and leases, as an ideal scheme over byte strings. -/
namespace Licensing

abbrev Bytes := List UInt8

structure Scheme where
  PrivateKey : Type
  PublicKey : Type
  publicKeyFor : PrivateKey → PublicKey
  sign : PrivateKey → Bytes → Bytes
  verify : PublicKey → Bytes → Bytes → Bool
  genuine : ∀ key message, verify (publicKeyFor key) message (sign key message) = true

/-- A moment is its number of microseconds, a timestamp text (`YYYY-MM-DDTHH:MM:SSZ`) its number of seconds. -/
def utcIso (moment : Int) : Int := moment / 1000000

def parseTime (seconds : Int) : Int := seconds * 1000000

theorem parseTime_utcIso_le (moment : Int) : parseTime (utcIso moment) ≤ moment := by
  unfold parseTime utcIso
  omega

end Licensing
