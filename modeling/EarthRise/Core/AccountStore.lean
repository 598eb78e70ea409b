import EarthRise.Core.ServerHost

/-!
# Registration and Login

The account store over its tables. A statement that violates no constraint
succeeds as long as the pool has a connection to give; a transaction writes its rows
when it commits, and a number handed out for an account is not handed out again.

The password derivation, the collation of the user name column and the source of
random bytes are parameters. The counters and what a session keeps beside its
account, token and base are left out.

A login answers the base that `Bases` has for the account. No operation of the store
writes that table, `setAccountBase` included.

## Main definitions

* `AuthDatabase`, `AccountStore`: The tables and the store.
* `AccountStore.register`, `AccountStore.login`: The two operations.
* `accountService`: The store as the host calls it.
-/

namespace EarthRise

namespace Persist

open Net

structure AccountRow where
  accountId : Nat
  username : Bytes
  passwordHash : Bytes
  passwordSalt : Bytes
  iterations : Nat
  /-- Zero is active, one banned, two suspended. -/
  status : Nat
  loginFailures : Nat
  lockedUntil : Option Int

structure SessionRow where
  accountId : Nat
  token : SessionToken
  expiresAt : Int
  revoked : Bool

/-- The tables of the account store; `bases` is account and base id. -/
structure AuthDatabase where
  nextAccountId : Nat
  accounts : List AccountRow
  wallets : List Nat
  sessions : List SessionRow
  bases : List (Nat × Int)

/-- The parameters of the store. Names are equal when they fold to the same. -/
structure AuthConfig where
  pepper : Bytes
  pbkdf2Iterations : Nat
  maxLoginFailures : Nat
  lockoutSeconds : Nat
  sessionTtlSeconds : Nat
  pbkdf2 : Bytes → Bytes → Nat → Bytes
  foldName : Bytes → Bytes
  randomBytes : Nat → ByteArrayOf 32

structure AccountStore where
  cfg : AuthConfig
  db : AuthDatabase
  /-- The pool gives out connections. -/
  available : Bool
  /-- Start and count of an address's window. -/
  ipWindows : Bytes → Int × Nat
  /-- How often random bytes were drawn. -/
  drawn : Nat

def maxUsernameChars : Nat := 64
def minUsernameChars : Nat := 3
def minPasswordChars : Nat := 8
def maxPasswordChars : Nat := 256
def pwHashBytes : Nat := 64
def ipWindowSeconds : Int := 60
def ipWindowMaxAttempts : Nat := 20

/-- A letter, a digit, an underscore, a hyphen or a full stop. -/
def validUsernameChar (c : UInt8) : Bool :=
  (97 ≤ c && c ≤ 122) || (65 ≤ c && c ≤ 90) || (48 ≤ c && c ≤ 57) || c = 95 || c = 45 || c = 46

def validUsername (u : Bytes) : Bool :=
  minUsernameChars ≤ u.length && u.length ≤ maxUsernameChars && u.all validUsernameChar

def validPassword (p : Bytes) : Bool :=
  minPasswordChars ≤ p.length && p.length ≤ maxPasswordChars

/-- No session, as it is before a success. -/
def noSession : SessionInfo := ⟨0, List.Vector.replicate 32 0, 0⟩

namespace AuthDatabase

def findUser (db : AuthDatabase) (foldName : Bytes → Bytes) (username : Bytes) :
    Option AccountRow :=
  db.accounts.find? fun r => foldName r.username = foldName username

/-- The base of an account, or zero. -/
def baseOf (db : AuthDatabase) (accountId : Nat) : Int :=
  ((db.bases.find? fun r => r.1 = accountId).map Prod.snd).getD 0

def updateAccount (db : AuthDatabase) (accountId : Nat) (f : AccountRow → AccountRow) :
    AuthDatabase :=
  { db with accounts := db.accounts.map fun r => if r.accountId = accountId then f r else r }

/-- Revoke the sessions of an account and add a new one. -/
def replaceSession (db : AuthDatabase) (row : SessionRow) : AuthDatabase :=
  { db with
    sessions := (db.sessions.map fun s =>
      if s.accountId = row.accountId then { s with revoked := true } else s) ++ [row] }

end AuthDatabase

namespace AccountStore

/-- The password with the pepper, derived; all zero if the derivation gave another
    length. -/
def hashPassword (a : AccountStore) (password salt : Bytes) (iterations : Nat) : Bytes :=
  let dk := a.cfg.pbkdf2 (password ++ a.cfg.pepper) salt iterations
  if dk.length = pwHashBytes then dk else List.replicate pwHashBytes 0

/-- Count an attempt of an address in its window. -/
def checkIpRateLimit (a : AccountStore) (ip : Bytes) (nowUnix : Int) : Bool × AccountStore :=
  let w := a.ipWindows ip
  let w := if ipWindowSeconds ≤ nowUnix - w.1 then (nowUnix, 0) else w
  let w := (w.1, w.2 + 1)
  (w.2 ≤ ipWindowMaxAttempts,
    { a with ipWindows := fun ip' => if ip' = ip then w else a.ipWindows ip' })

def draw (a : AccountStore) : ByteArrayOf 32 × AccountStore :=
  (a.cfg.randomBytes a.drawn, { a with drawn := a.drawn + 1 })

/-- A new account with its wallet. -/
def register (username password : Bytes) (_nowUnix : Int) (a : AccountStore) :
    (AuthResult × SessionInfo) × AccountStore :=
  if validUsername username = false ∨ validPassword password = false then ((.badInput, noSession), a)
  else if a.available = false then ((.dbUnavailable, noSession), a)
  else
    let r := a.draw
    let a := r.2
    let hash := a.hashPassword password r.1.toList a.cfg.pbkdf2Iterations
    let accountId := a.db.nextAccountId
    -- The number is used up even when the name is taken.
    let db := { a.db with nextAccountId := accountId + 1 }
    match db.findUser a.cfg.foldName username with
    | some _ => ((.usernameTaken, noSession), { a with db := db })
    | none =>
        let row : AccountRow :=
          { accountId := accountId, username := username, passwordHash := hash
            passwordSalt := r.1.toList, iterations := a.cfg.pbkdf2Iterations, status := 0
            loginFailures := 0, lockedUntil := none }
        ((.ok, { noSession with accountId := accountId }),
          { a with db := { db with accounts := db.accounts ++ [row]
                                   wallets := db.wallets ++ [accountId] } })

/-- A wrong password: one more failure, and a lock at the limit. -/
def failLogin (a : AccountStore) (accountId : Nat) (nowUnix : Int) : AccountStore :=
  { a with
    db := a.db.updateAccount accountId fun r =>
      { r with
        loginFailures := r.loginFailures + 1
        lockedUntil :=
          if a.cfg.maxLoginFailures ≤ r.loginFailures + 1 then
            some (nowUnix + a.cfg.lockoutSeconds)
          else r.lockedUntil } }

/-- A right password: no failures, no lock, a new session in the place of the old
    ones, and the account's base. -/
def finishLogin (a : AccountStore) (accountId : Nat) (nowUnix : Int) :
    (AuthResult × SessionInfo) × AccountStore :=
  let db := a.db.updateAccount accountId fun r => { r with loginFailures := 0, lockedUntil := none }
  let r := a.draw
  let db := db.replaceSession ⟨accountId, r.1, nowUnix + a.cfg.sessionTtlSeconds, false⟩
  ((.ok, { accountId := accountId, token := r.1, baseId := db.baseOf accountId }),
    { r.2 with db := db })

/-- The password of an account's row, at the cost the row has. -/
def matchesPassword (a : AccountStore) (row : AccountRow) (password : Bytes) : Bool :=
  let iterations := if 0 < row.iterations then row.iterations else a.cfg.pbkdf2Iterations
  row.passwordHash.length = pwHashBytes &&
    a.hashPassword password row.passwordSalt iterations = row.passwordHash

def locked (row : AccountRow) (nowUnix : Int) : Bool :=
  match row.lockedUntil with
  | none => false
  | some t => t ≠ 0 && nowUnix < t

def login (username password clientIp : Bytes) (nowUnix : Int) (a : AccountStore) :
    (AuthResult × SessionInfo) × AccountStore :=
  if validUsername username = false ∨ validPassword password = false then ((.badInput, noSession), a)
  else
    let r := a.checkIpRateLimit clientIp nowUnix
    let a := r.2
    if r.1 = false then ((.rateLimited, noSession), a)
    else if a.available = false then ((.dbUnavailable, noSession), a)
    else
      match a.db.findUser a.cfg.foldName username with
      | none => ((.invalidCredentials, noSession), a)
      | some row =>
          if row.status ≠ 0 then ((.accountBanned, noSession), a)
          else if locked row nowUnix then ((.accountLocked, noSession), a)
          else if a.matchesPassword row password = false then
            ((.invalidCredentials, noSession), a.failLogin row.accountId nowUnix)
          else a.finishLogin row.accountId nowUnix

/-- The binding is not stored. -/
def setAccountBase (_accountId : Nat) (_baseId : UInt32) (a : AccountStore) : AccountStore := a

end AccountStore

/-- The store as the host calls it. -/
def accountService : AccountService AccountStore where
  register := AccountStore.register
  login := AccountStore.login
  setAccountBase := AccountStore.setAccountBase

end Persist

end EarthRise
