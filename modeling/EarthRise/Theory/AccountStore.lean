import EarthRise.Core.AccountStore

/-!
# Names and Passwords in the Store

What the two operations of the store answer for a name with its password, as long as the
pool gives connections and the address may try. Where nobody has the name a login is refused
and a registration succeeds; where somebody has it, it is the other way round. Afterwards
whoever has the name has that password, and can log in with it.

## Main definitions

* `AccountStore.Healthy`: The store takes a login.
* `AccountStore.Holds`: Whoever has the name can log in with the password.

## Theorems

* `login_unknown`, `login_known`: A login.
* `register_unknown`, `register_known`: A registration.
-/

namespace EarthRise

namespace Persist

open Net

theorem AuthDatabase.findUser_updateAccount (db : AuthDatabase) (foldName : Bytes → Bytes)
    (accountId : Nat) (f : AccountRow → AccountRow) (hf : ∀ r, (f r).username = r.username)
    (user : Bytes) :
    (db.updateAccount accountId f).findUser foldName user =
      (db.findUser foldName user).map fun r => if r.accountId = accountId then f r else r := by
  unfold findUser updateAccount
  rw [List.find?_map]
  have hsame : ((fun r : AccountRow => decide (foldName r.username = foldName user)) ∘
      fun r => if r.accountId = accountId then f r else r) =
        fun r => decide (foldName r.username = foldName user) := by
    funext r
    by_cases hr : r.accountId = accountId
    · simp only [Function.comp_apply, if_pos hr, hf]
    · simp only [Function.comp_apply, if_neg hr]
  rw [hsame]

namespace AccountStore

/-- The store takes a login from an address: the pool gives connections, and the address may
    try once more. -/
def Healthy (a : AccountStore) (ip : Bytes) (now : Int) : Prop :=
  a.available = true ∧ (a.checkIpRateLimit ip now).1 = true

instance (a : AccountStore) (ip : Bytes) (now : Int) : Decidable (a.Healthy ip now) :=
  inferInstanceAs (Decidable (_ ∧ _))

def find (a : AccountStore) (user : Bytes) : Option AccountRow :=
  a.db.findUser a.cfg.foldName user

/-- Whoever has the name can log in with the password. -/
def Holds (a : AccountStore) (user pass : Bytes) : Prop :=
  ∀ row, a.find user = some row →
    row.status = 0 ∧ row.lockedUntil = none ∧ a.matchesPassword row pass = true

theorem holds_of_none {a : AccountStore} {user pass : Bytes} (h : a.find user = none) :
    a.Holds user pass := by
  intro row hrow
  rw [h] at hrow
  exact absurd hrow nofun

theorem length_hashPassword (a : AccountStore) (password salt : Bytes) (iterations : Nat) :
    (a.hashPassword password salt iterations).length = pwHashBytes := by
  unfold hashPassword
  simp only []
  split
  · assumption
  · exact List.length_replicate

/-- Counting an attempt leaves the tables. -/
theorem checkIpRateLimit_kept (a : AccountStore) (ip : Bytes) (now : Int) :
    (a.checkIpRateLimit ip now).2.db = a.db ∧ (a.checkIpRateLimit ip now).2.cfg = a.cfg ∧
      (a.checkIpRateLimit ip now).2.available = a.available :=
  ⟨rfl, rfl, rfl⟩

section

variable {a : AccountStore} {user pass ip : Bytes} (now : Int)
  (huser : validUsername user = true) (hpass : validPassword pass = true)

include huser hpass

theorem valid_not : ¬ (validUsername user = false ∨ validPassword pass = false) := by
  rw [huser, hpass]
  decide

/-- A login with a name that nobody has is refused. -/
theorem login_unknown (hhealthy : a.Healthy ip now) (hnone : a.find user = none) :
    (login user pass ip now a).1.1 = .invalidCredentials ∧
      (login user pass ip now a).2.find user = none := by
  rcases checkIpRateLimit_kept a ip now with ⟨hdb, hcfg, havailable⟩
  have hfind : (a.checkIpRateLimit ip now).2.db.findUser
      (a.checkIpRateLimit ip now).2.cfg.foldName user = none := by
    rw [hdb, hcfg]
    exact hnone
  unfold login
  simp only []
  rw [if_neg (valid_not huser hpass), if_neg (by rw [hhealthy.2]; decide),
    if_neg (by rw [havailable, hhealthy.1]; decide), hfind]
  exact ⟨rfl, hfind⟩

/-- A login with the password of the name succeeds, with the base of the account, and can be
    made again. -/
theorem login_known (hhealthy : a.Healthy ip now) (hholds : a.Holds user pass)
    {row : AccountRow} (hrow : a.find user = some row) :
    (login user pass ip now a).1.1 = .ok ∧ (login user pass ip now a).2.Holds user pass ∧
      ((login user pass ip now a).2.find user).isSome = true ∧
      (login user pass ip now a).1.2.baseId = a.db.baseOf row.accountId := by
  rcases checkIpRateLimit_kept a ip now with ⟨hdb, hcfg, havailable⟩
  rcases hholds row hrow with ⟨hstatus, hunlocked, hmatch⟩
  have hfind : (a.checkIpRateLimit ip now).2.db.findUser
      (a.checkIpRateLimit ip now).2.cfg.foldName user = some row := by
    rw [hdb, hcfg]
    exact hrow
  have hopen : locked row now = false := by
    unfold locked
    rw [hunlocked]
  have hmatch' : (a.checkIpRateLimit ip now).2.matchesPassword row pass = true := hmatch
  have hlogin : login user pass ip now a =
      (a.checkIpRateLimit ip now).2.finishLogin row.accountId now := by
    unfold login
    simp only []
    rw [if_neg (valid_not huser hpass), if_neg (by rw [hhealthy.2]; decide),
      if_neg (by rw [havailable, hhealthy.1]; decide), hfind]
    simp only []
    rw [if_neg (fun h => h hstatus), hopen, if_neg Bool.false_ne_true, hmatch',
      if_neg (by decide)]
  have hafter : ((a.checkIpRateLimit ip now).2.finishLogin row.accountId now).2.find user =
      (a.find user).map fun r =>
        if r.accountId = row.accountId then { r with loginFailures := 0, lockedUntil := none }
        else r :=
    AuthDatabase.findUser_updateAccount a.db a.cfg.foldName row.accountId
      (fun r => { r with loginFailures := 0, lockedUntil := none }) (fun _ => rfl) user
  rw [hlogin]
  refine ⟨rfl, fun row' hrow' => ?_, ?_, rfl⟩
  · rw [hafter, hrow, Option.map_some, if_pos rfl, Option.some.injEq] at hrow'
    rw [← hrow']
    exact ⟨hstatus, rfl, hmatch⟩
  · rw [hafter, hrow]
    rfl

/-- A name that nobody has can be registered, and then be used. -/
theorem register_unknown (havailable : a.available = true) (hnone : a.find user = none) :
    (register user pass now a).1.1 = .ok ∧ (register user pass now a).2.Holds user pass ∧
      ((register user pass now a).2.find user).isSome = true ∧
      ((register user pass now a).2.ipWindows = a.ipWindows ∧
        (register user pass now a).2.available = true) := by
  have hfind : a.draw.2.db.findUser a.draw.2.cfg.foldName user = none := hnone
  have hself : ∀ row : AccountRow, row.username = user →
      (a.db.accounts ++ [row]).find? (fun r => a.cfg.foldName r.username = a.cfg.foldName user) =
        some row := by
    intro row hname
    have hold : a.db.accounts.find? (fun r => a.cfg.foldName r.username = a.cfg.foldName user) =
        none := hnone
    rw [List.find?_append, hold, Option.none_or, List.find?_cons_of_pos]
    rw [hname, decide_eq_true_eq]
  have hregister : ∃ row : AccountRow, row.username = user ∧ row.status = 0 ∧
      row.lockedUntil = none ∧ a.matchesPassword row pass = true ∧
      (register user pass now a).1.1 = .ok ∧
      (register user pass now a).2.db.accounts = a.db.accounts ++ [row] ∧
      (register user pass now a).2.cfg = a.cfg ∧
      (register user pass now a).2.ipWindows = a.ipWindows ∧
      (register user pass now a).2.available = a.available := by
    unfold register
    simp only []
    rw [if_neg (valid_not huser hpass), if_neg (by rw [havailable]; decide)]
    have hfind' : AuthDatabase.findUser { a.draw.2.db with
        nextAccountId := a.draw.2.db.nextAccountId + 1 } a.draw.2.cfg.foldName user = none := hfind
    rw [hfind']
    refine ⟨_, rfl, rfl, rfl, ?_, rfl, rfl, rfl, rfl, rfl⟩
    unfold matchesPassword
    simp only []
    rw [length_hashPassword, decide_eq_true rfl, Bool.true_and, decide_eq_true_eq]
    split
    · rfl
    · rfl
  rcases hregister with ⟨row, hname, hstatus, hunlocked, hmatch, hok, haccounts, hcfg, hip, hav⟩
  have hafter : (register user pass now a).2.find user = some row := by
    unfold find AuthDatabase.findUser
    rw [haccounts, hcfg]
    exact hself row hname
  refine ⟨hok, fun row' hrow' => ?_, by rw [hafter]; rfl, hip, hav.trans havailable⟩
  rw [hafter, Option.some.injEq] at hrow'
  rw [← hrow']
  refine ⟨hstatus, hunlocked, ?_⟩
  unfold matchesPassword hashPassword at hmatch ⊢
  rw [hcfg]
  exact hmatch

/-- A name that somebody has is taken. -/
theorem register_known (havailable : a.available = true) {row : AccountRow}
    (hrow : a.find user = some row) :
    (register user pass now a).1.1 = .usernameTaken ∧
      (register user pass now a).2.find user = some row ∧
      (register user pass now a).2.cfg = a.cfg := by
  have hfind : AuthDatabase.findUser { a.draw.2.db with
      nextAccountId := a.draw.2.db.nextAccountId + 1 } a.draw.2.cfg.foldName user = some row := hrow
  unfold register
  simp only []
  rw [if_neg (valid_not huser hpass), if_neg (by rw [havailable]; decide), hfind]
  exact ⟨rfl, hrow, rfl⟩

end

end AccountStore

end Persist

end EarthRise
