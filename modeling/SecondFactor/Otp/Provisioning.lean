import SecondFactor.Encoding.Percent
import SecondFactor.Otp.Secret
import SecondFactor.Qr.Png

/-!
# Handing a secret to an authenticator

An authenticator takes a secret as a URI, which the user scans as a QR symbol. Parameters at their
usual values are left out of the URI.
-/

namespace SecondFactor.Otp.Secret

def uri (s : Secret) (key : Bytes) : String :=
  let issuer := Percent.encode s.issuer
  "otpauth://totp/" ++ issuer ++ ":" ++ Percent.encode s.account ++
    "?secret=" ++ Base32.encodeUnpadded key ++
    (if s.digits = 6 then "" else "&digits=" ++ toString s.digits) ++
    (if s.algorithm = .sha1 then "" else "&algorithm=" ++ s.algorithm.name) ++
    "&issuer=" ++ issuer ++
    (if s.step = 30 then "" else "&period=" ++ toString s.step)

def symbol (s : Secret) : Except Cause Qr.Symbol := do
  let key ← s.usableKey
  match Qr.symbol? (Bytes.ofText (s.uri key)) with
  | some symbol => return symbol
  | none => throw (.internal .imageTooLarge)

def image (s : Secret) : Except Cause Bytes := do return Qr.Png.encode (← s.symbol)

end SecondFactor.Otp.Secret
