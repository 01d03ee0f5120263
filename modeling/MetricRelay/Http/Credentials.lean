import MetricRelay.Text.Utf8

/-!
# Basic credentials

`basic` is the value of an authorization header for a user and a password: both, joined by a
colon, in Base64.
-/

namespace MetricRelay.Http

def base64Digit (n : Nat) : Char :=
  if n < 26 then Char.ofNat ('A'.toNat + n)
  else if n < 52 then Char.ofNat ('a'.toNat + (n - 26))
  else if n < 62 then Char.ofNat ('0'.toNat + (n - 52))
  else if n = 62 then '+'
  else '/'

/-- Four digits for three bytes; a shorter end is filled up with `=`. -/
def base64 : Bytes → List Char
  | a :: b :: c :: r =>
    let n := a.toNat * 65536 + b.toNat * 256 + c.toNat
    [base64Digit (n / 262144), base64Digit (n / 4096 % 64), base64Digit (n / 64 % 64),
      base64Digit (n % 64)] ++ base64 r
  | [a, b] =>
    let n := a.toNat * 256 + b.toNat
    [base64Digit (n / 1024), base64Digit (n / 16 % 64), base64Digit (n % 16 * 4), '=']
  | [a] => [base64Digit (a.toNat / 4), base64Digit (a.toNat % 4 * 16), '=', '=']
  | [] => []

def basic (user password : String) : String :=
  "Basic " ++ String.ofList (base64 (Text.encode (user ++ ":" ++ password)))

end MetricRelay.Http
