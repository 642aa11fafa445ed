import SecondFactor.Envelope

/-!
# Why a request is refused

Every refusal has a cause. A cause has a full message for those who run the service and a plain
one, with a status, for those who use it; the plain one does not tell which check of a credential
failed, nor what went wrong inside. Causes that come from a failed check, a conflicting state or a
defect carry what exactly it was.
-/

namespace SecondFactor

/-- Which credential did not match. -/
inductive Mismatch where
  | credentials
  | password
  | other (reason : String)
  deriving DecidableEq

def Mismatch.reason : Mismatch → String
  | .credentials => "invalid_credentials"
  | .password => "invalid_password"
  | .other reason => reason

inductive Complaint where
  | emailMissing
  | emailMalformed
  | passwordMissing
  | passwordShort
  | codeMissing
  /-- A one-time code must have so many digits. -/
  | codeDigits (digits : Nat)
  | backupCodeMissing
  | backupCodeLength
  | recoveryKeyForm
  | refreshTokenMissing
  | other (text : String)
  deriving DecidableEq

def Complaint.message : Complaint → String
  | .emailMissing => "メールアドレスは必須です"
  | .emailMalformed => "有効なメールアドレスを入力してください"
  | .passwordMissing => "パスワードは必須です"
  | .passwordShort => "パスワードは8文字以上で入力してください"
  | .codeMissing => "認証コードは必須です"
  | .codeDigits digits => "認証コードは" ++ toString digits ++ "桁の数字で入力してください"
  | .backupCodeMissing => "バックアップコードは必須です"
  | .backupCodeLength => "バックアップコードは8文字で入力してください"
  | .recoveryKeyForm => "リカバリーキーの形式が正しくありません"
  | .refreshTokenMissing => "refresh_token は必須です"
  | .other text => text

/-- Which state stands in the way. -/
inductive Conflict where
  | alreadyEnabled
  | nothingPending
  | alreadyVerified
  | verificationNeeded
  | concurrentUpdate
  | other (text : String)
  deriving DecidableEq

def Conflict.message : Conflict → String
  | .alreadyEnabled => "二要素認証は既に有効です"
  | .nothingPending => "有効化待ちのシークレットがありません"
  | .alreadyVerified => "このセッションは検証済みです"
  | .verificationNeeded => "二要素認証の検証が必要です"
  | .concurrentUpdate => "並行した更新と競合しました"
  | .other text => text

/-- What went wrong inside. -/
inductive Defect where
  | unsupportedAlgorithm
  | digitsOutOfRange
  | stepNotPositive
  | issuerInvalid
  | pepperMissing
  /-- The shared key of a secret is not Base32 text. -/
  | keyTextInvalid
  /-- A secret has parameters that no code can be made with. -/
  | secretUnusable
  | imageTooLarge
  | imageDirectory
  | imageWrite
  | imageRead
  | envelope (failure : Envelope.Failure)
  /-- An envelope held no secret. -/
  | payload
  | passwordHashUnreadable
  | fingerprintUnreadable
  /-- The clock stands before 1970. -/
  | clock
  | other (text : String)
  deriving DecidableEq

def Defect.message : Defect → String
  | .unsupportedAlgorithm => "unsupported totp algorithm"
  | .digitsOutOfRange => "totp digits must be between 6 and 8"
  | .stepNotPositive => "totp step must be positive"
  | .issuerInvalid => "invalid totp issuer"
  | .pepperMissing => "double hash mode requires a pepper"
  | .keyTextInvalid => "invalid base32 secret"
  | .secretUnusable => "totp creation error"
  | .imageTooLarge => "qr code generation error"
  | .imageDirectory => "qr directory error"
  | .imageWrite => "qr write error"
  | .imageRead => "qr read error"
  | .envelope failure => failure.message
  | .payload => "corrupt secret payload"
  | .passwordHashUnreadable => "password hash parse error"
  | .fingerprintUnreadable => "fingerprint parse error"
  | .clock => "system time error"
  | .other text => text

/-- Why a request is refused. -/
inductive Cause where
  | authentication (mismatch : Mismatch)
  | unauthorized
  | validation (complaint : Complaint)
  | conflict (conflict : Conflict)
  | database
  | internal (defect : Defect)
  | emailTaken
  | codeInvalid
  | backupCodeInvalid
  | recoveryKeyInvalid
  | alreadyEnabled
  | notEnabled
  | notFound
  deriving DecidableEq

namespace Cause

/-- The full message. -/
def message : Cause → String
  | authentication m => "認証エラー: " ++ m.reason
  | unauthorized => "セッションが無効です"
  | validation c => "バリデーションエラー: " ++ c.message
  | conflict c => "状態エラー: " ++ c.message
  | database => "データベースエラー"
  | internal _ => "内部エラー"
  | emailTaken => "このメールアドレスは既に使用されています"
  | codeInvalid => "認証コードが無効です"
  | backupCodeInvalid => "バックアップコードが無効です"
  | recoveryKeyInvalid => "リカバリーキーが無効です"
  | alreadyEnabled => "二要素認証は既に有効です"
  | notEnabled => "二要素認証が有効化されていません"
  | notFound => "リソースが見つかりません"

def status : Cause → Nat
  | authentication _ | unauthorized | codeInvalid | backupCodeInvalid | recoveryKeyInvalid => 401
  | validation _ | notEnabled => 400
  | conflict _ | emailTaken | alreadyEnabled => 409
  | database | internal _ => 500
  | notFound => 404

def clientMessage : Cause → String
  | authentication _ => "メールアドレスまたはパスワードが正しくありません"
  | unauthorized => "ログインが必要です"
  | validation c => c.message
  | conflict c => c.message
  | database | internal _ => "内部エラーが発生しました"
  | emailTaken => "このメールアドレスは既に使用されています"
  | codeInvalid | backupCodeInvalid => "認証コードが正しくありません"
  | recoveryKeyInvalid => "リカバリーキーが正しくありません"
  | alreadyEnabled => "二要素認証は既に有効です"
  | notEnabled => "二要素認証が有効化されていません"
  | notFound => "見つかりません"

/-- Whether the answer carries a reference by which the full message can be found. -/
def isReferenced : Cause → Bool
  | database | internal _ => true
  | _ => false

end Cause

/-- How a computation ends without a result. -/
inductive Failure where
  /-- It is refused. -/
  | refused (cause : Cause)
  /-- It breaks off without any answer: steps have no length, an instant lies beyond the calendar,
  or a hash asks for more blocks than can be counted. -/
  | crash
  deriving DecidableEq

/-- How a computation ends for want of a verdict on a word; an unreadable hash is a defect. -/
def Failure.ofFault (unreadable : Defect) : Argon2.Fault → Failure
  | .unreadable => .refused (.internal unreadable)
  | .uncountable => .crash

end SecondFactor
