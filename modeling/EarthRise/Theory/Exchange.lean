import EarthRise.Core.Exchange
import EarthRise.Lib.Run
import EarthRise.Theory.Connection
import EarthRise.Theory.Handshake

/-!
# What a Response Proves to the Client

The signature is over the server's new key and nothing else. So a client that accepts a
response knows that the key in it was made by the server, for a connection of somebody. The
token and the epoch beside it can be anybody's, and the response can have been made for
another client.

What keeps the client safe then is the key agreement. No connection of the server has the
keys of the client unless its response was made for the client's own key, and had the epoch
and the server's key that the client used. The token is not bound that way.

## Main definitions

* `Authentic`: Key, token and epoch are those of one answer made for the client.
* `Honest`: The invariant: where the keys of both ends come from.

## Theorems

* `answerOf_spec`: What the server puts together.
* `accepted_key`: What the client knows when it has accepted.
* `token_changed`: A run where the token is changed and the client accepts.
-/

namespace EarthRise

namespace Net

open Run

variable {Key : Type}

/-- What the server puts together for a cookie response. -/
theorem answerOf_spec (C : CryptoProvider Key) {staticPriv : Bytes} {fresh : EcdhKeyPair}
    {token serverTime : UInt64} {body : Bytes} {a : Answer Key}
    (h : answerOf C staticPriv fresh token serverTime body = some a) :
    a.response.serverEphemeralPub = fresh.publicKey ∧ a.response.epoch = 0 ∧
      ∃ secret, C.deriveSharedSecret fresh a.clientPub = some secret ∧
        C.deriveAeadKeys secret a.response.epoch = some a.keys := by
  unfold answerOf at h
  simp only [] at h
  split at h
  · rename_i cr type b keys hcr hmessage hkeys
    rcases onCookieResponse_message C fresh _ hmessage with
      ⟨cr', secret, sig, keys', hcr', hsecret, hderived, _, rfl, hafter⟩
    rw [decodeHandshakeResponse_encode, Option.map_some, Option.some.injEq] at h
    rw [hafter, Option.some.injEq] at hkeys
    rw [hcr, Option.some.injEq] at hcr'
    rw [← h]
    refine ⟨rfl, rfl, secret, ?_, ?_⟩
    · rw [hcr']
      exact hsecret
    · rw [← hkeys]
      exact hderived
  · exact absurd h nofun

/-! ## A provider to run with -/

/-- The two seeds in order, and the greater one again. -/
def secretOf (x y : UInt8) : SharedSecret :=
  List.Vector.ofFn fun i => UInt8.ofNat (if i.val = 0 then min x.toNat y.toNat
    else max x.toNat y.toNat)

/-- A provider that keeps what is assumed: a key is its seed, a secret the two seeds, and the
    keys are the secret and the epoch. -/
def idealProvider : CryptoProvider (SharedSecret × UInt32 × Bool) where
  encrypt := fun _ _ _ _ plain => some plain
  decrypt := fun _ _ _ _ cipher => some cipher
  deriveSharedSecret := fun ours theirs =>
    match ours.privateBlob with
    | [x] =>
        if theirs = List.Vector.replicate ecPubKeyBytes (theirs.toList.headD 0) then
          some (secretOf x (theirs.toList.headD 0))
        else none
    | _ => none
  sign := fun _ pub => some pub
  verify := fun _ pub sig => decide (pub.toList = sig.toList)
  deriveAeadKeys := fun secret epoch => some ((secret, epoch, false), (secret, epoch, true))
  makeCookie := fun secret addr => List.Vector.replicate 32 (digest (secret ++ addr))
  verifyCookie := fun secret addr cookie =>
    decide (cookie.toList = List.replicate 32 (digest (secret ++ addr)))

/-- The key pairs of its generator. -/
def Seeded (pair : EcdhKeyPair) : Prop := ∃ seed, pair = sampleKeyPair seed

theorem secretOf_inj {x y u v : UInt8} (h : secretOf x u = secretOf y v) :
    x = v ∧ u = y ∨ x = y ∧ u = v := by
  have hx := x.toNat_lt
  have hy := y.toNat_lt
  have hu := u.toNat_lt
  have hv := v.toNat_lt
  have hmin := congrArg (fun s => (List.Vector.get s 0).toNat) h
  have hmax := congrArg (fun s => (List.Vector.get s 1).toNat) h
  simp only [secretOf, List.Vector.get_ofFn, Fin.val_zero, Fin.val_one, if_true, one_ne_zero,
    if_false, UInt8.toNat_ofNat'] at hmin hmax
  rw [← UInt8.toNat_inj, ← UInt8.toNat_inj, ← UInt8.toNat_inj, ← UInt8.toNat_inj]
  omega

theorem idealProvider_derive {x : UInt8} {pub : EcPubKey} {s : SharedSecret}
    (h : idealProvider.deriveSharedSecret (sampleKeyPair x) pub = some s) :
    ∃ u, pub = List.Vector.replicate ecPubKeyBytes u ∧ s = secretOf x u := by
  have hif : (if pub = List.Vector.replicate ecPubKeyBytes (pub.toList.headD 0) then
      some (secretOf x (pub.toList.headD 0)) else none) = some s := h
  by_cases heq : pub = List.Vector.replicate ecPubKeyBytes (pub.toList.headD 0)
  · rw [if_pos heq, Option.some.injEq] at hif
    exact ⟨_, heq, hif.symm⟩
  · rw [if_neg heq] at hif
    exact absurd hif nofun

theorem idealProvider_replicate (x u : UInt8) :
    idealProvider.deriveSharedSecret (sampleKeyPair x) (List.Vector.replicate ecPubKeyBytes u) =
      some (secretOf x u) := by
  have hhead : (List.Vector.replicate ecPubKeyBytes u).toList.headD 0 = u := rfl
  show (if _ = List.Vector.replicate ecPubKeyBytes _ then some _ else none) = _
  rw [hhead, if_pos rfl]

theorem idealProvider_ideal : idealProvider.Ideal Seeded where
  unset := by
    intro pair pub hblob
    show (match pair.privateBlob with | [x] => _ | _ => none) = none
    rw [hblob]
  agree := by
    rintro a b ⟨x, rfl⟩ ⟨y, rfl⟩
    have hcomm : secretOf x y = secretOf y x := by
      unfold secretOf
      rw [Nat.min_comm, Nat.max_comm]
    exact (idealProvider_replicate x y).trans (by
      rw [hcomm]
      exact (idealProvider_replicate y x).symm)
  apart := by
    rintro a b X Y s ⟨x, rfl⟩ ⟨y, rfl⟩ hx hy
    rcases idealProvider_derive hx with ⟨u, rfl, rfl⟩
    rcases idealProvider_derive hy with ⟨v, rfl, hsame⟩
    rcases secretOf_inj hsame with ⟨h₁, h₂⟩ | ⟨h₁, h₂⟩
    · rw [h₁, h₂]
      exact .inl ⟨rfl, rfl⟩
    · rw [h₁, h₂]
      exact .inr ⟨rfl, rfl⟩
  keys := by
    intro s s' e e' k h h'
    have hk := Option.some.inj h
    have hk' := Option.some.inj h'
    rw [← hk'] at hk
    simp only [Prod.mk.injEq] at hk
    exact ⟨hk.1.1, hk.1.2.1⟩

namespace Exchange

/-- The key, the token and the epoch that the client uses were put together in one response,
    and that was made for the client's own key. -/
def Authentic (w : Exchange Key) : Prop :=
  ∃ own, w.client.ephemeral = some own ∧ ∃ a ∈ w.answers, a.clientPub = own.publicKey ∧
    w.used = some a.response.serverEphemeralPub ∧ w.client.token = a.response.connectionToken ∧
      w.client.epoch = a.response.epoch

variable (C : CryptoProvider Key) (Gen : EcdhKeyPair → Prop)

/-- Where the keys of both ends come from. -/
structure Honest (w : Exchange Key) : Prop where
  answered : ∀ a ∈ w.answers, ∃ fresh secret, Gen fresh ∧
    a.response.serverEphemeralPub = fresh.publicKey ∧ fresh.publicKey ∈ w.drawn ∧
      C.deriveSharedSecret fresh a.clientPub = some secret ∧
        C.deriveAeadKeys secret a.response.epoch = some a.keys
  own : ∀ pair, w.client.ephemeral = some pair → Gen pair ∧ pair.publicKey ∈ w.drawn ∧
    ∀ a ∈ w.answers, a.response.serverEphemeralPub ≠ pair.publicKey
  accepted : ∀ keys, w.client.keys = some keys → ∃ own server secret,
    w.client.ephemeral = some own ∧ w.used = some server ∧
      (∃ a ∈ w.answers, a.response.serverEphemeralPub = server) ∧
        C.deriveSharedSecret own server = some secret ∧
          C.deriveAeadKeys secret w.client.epoch = some keys

variable {C Gen} {w : Exchange Key}

theorem Honest.answer (hw : w.Honest C Gen) {fresh : EcdhKeyPair}
    (hgen : Gen fresh) (hnew : fresh.publicKey ∉ w.drawn) (token serverTime : UInt64)
    (body : Bytes) :
    Honest C Gen { w with
      answers := w.answers ++ (answerOf C w.staticPriv fresh token serverTime body).toList
      drawn := fresh.publicKey :: w.drawn } := by
  refine ⟨fun a ha => ?_, fun pair hpair => ?_, fun keys hkeys => ?_⟩
  · rcases List.mem_append.mp ha with hold | hself
    · rcases hw.answered a hold with ⟨f, secret, hf, hpub, hmem, hsecret⟩
      exact ⟨f, secret, hf, hpub, List.mem_cons_of_mem _ hmem, hsecret⟩
    · rcases answerOf_spec C (Option.mem_toList.mp hself) with ⟨hpub, _, secret, hsecret⟩
      exact ⟨fresh, secret, hgen, hpub, List.mem_cons_self, hsecret⟩
  · rcases hw.own pair hpair with ⟨hpairGen, hmem, hother⟩
    refine ⟨hpairGen, List.mem_cons_of_mem _ hmem, fun a ha => ?_⟩
    rcases List.mem_append.mp ha with hold | hself
    · exact hother a hold
    · rw [(answerOf_spec C (Option.mem_toList.mp hself)).1]
      intro hsame
      rw [hsame] at hnew
      exact hnew hmem
  · rcases hw.accepted keys hkeys with ⟨own, server, secret, hown, hused, ⟨a, ha, hserver⟩, hd⟩
    exact ⟨own, server, secret, hown, hused, ⟨a, List.mem_append_left _ ha, hserver⟩, hd⟩

/-- The client is as it was, or has drawn its key pair. -/
theorem Honest.idle (hw : w.Honest C Gen) {fresh : EcdhKeyPair}
    (hgen : Gen fresh) (hnew : fresh.publicKey ∉ w.drawn) {client : HandshakeClient Key}
    (hkeys : client.keys = w.client.keys)
    (hephemeral : client.ephemeral = w.client.ephemeral ∨
      client.ephemeral = some (w.client.ephemeral.getD fresh))
    (hepoch : w.client.keys.isSome = true → client.epoch = w.client.epoch) :
    Honest C Gen { w with client := client, drawn := fresh.publicKey :: w.drawn } := by
  refine ⟨fun a ha => ?_, fun pair hpair => ?_, fun keys hk => ?_⟩
  · rcases hw.answered a ha with ⟨f, secret, hf, hpub, hmem, hsecret⟩
    exact ⟨f, secret, hf, hpub, List.mem_cons_of_mem _ hmem, hsecret⟩
  · have hold : ∀ p, w.client.ephemeral = some p → Gen p ∧
        p.publicKey ∈ fresh.publicKey :: w.drawn ∧
          ∀ a ∈ w.answers, a.response.serverEphemeralPub ≠ p.publicKey := by
      intro p hp
      rcases hw.own p hp with ⟨hp, hmem, hother⟩
      exact ⟨hp, List.mem_cons_of_mem _ hmem, hother⟩
    rcases hephemeral with heq | heq
    · exact hold pair (heq.symm.trans hpair)
    · cases he : w.client.ephemeral with
      | some p =>
          rw [he, Option.getD_some] at heq
          rw [← Option.some.inj (heq.symm.trans hpair)]
          exact hold p he
      | none =>
          rw [he, Option.getD_none] at heq
          rw [← Option.some.inj (heq.symm.trans hpair)]
          refine ⟨hgen, List.mem_cons_self, fun a ha hsame => hnew ?_⟩
          rcases hw.answered a ha with ⟨f, _, _, hpub, hmem, _⟩
          rw [← hsame, hpub]
          exact hmem
  · have hk' : w.client.keys = some keys := hkeys.symm.trans hk
    rcases hw.accepted keys hk' with ⟨own, server, secret, hown, hused, hserver, hd, hderived⟩
    have hsame : client.epoch = w.client.epoch := hepoch (by rw [hk']; rfl)
    refine ⟨own, server, secret, ?_, hused, hserver, hd, ?_⟩
    · rcases hephemeral with heq | heq
      · exact heq.trans hown
      · rw [hown, Option.getD_some] at heq
        exact heq
    · show C.deriveAeadKeys secret client.epoch = some keys
      rw [hsame]
      exact hderived

theorem Honest.step (hC : C.Ideal Gen) {w w' : Exchange Key} (hw : w.Honest C Gen)
    (l : ExchangeLabel) (hfair : w.Unforged C Gen l) (hstep : w.step C l = some w') :
    w'.Honest C Gen := by
  cases l with
  | answer fresh token serverTime body =>
      rw [Exchange.step, Option.some.injEq] at hstep
      rw [← hstep]
      exact hw.answer hfair.1 hfair.2 token serverTime body
  | deliver fresh type body =>
      rw [Exchange.step, Option.some.injEq] at hstep
      rcases hfair with ⟨hgen, hnew, hsigned⟩
      rcases HandshakeClient.onMessage_cases C fresh w.client type body with
        ⟨hkeys, hephemeral, hrest⟩ | ⟨htype, response, hbody, hacc⟩
      · have hnot : ¬ (w.client.keys.isNone = true ∧
            (w.client.onMessage C fresh type body).2.keys.isSome = true) := by
          rw [hkeys]
          rintro ⟨hnone, hsome⟩
          rw [Option.isNone_iff_eq_none] at hnone
          rw [hnone] at hsome
          exact Bool.false_ne_true hsome
        rw [if_neg hnot] at hstep
        rw [← hstep]
        exact hw.idle hgen hnew hkeys hephemeral fun h => (hrest h).2
      · rcases hacc.derived with ⟨secret, hsecret, keys, hkeys, hk⟩
        rcases hsigned htype response hbody hacc.verified with ⟨a, ha, hserver⟩
        have hused : w.client.keys.isNone = true ∧
            (w.client.onMessage C fresh type body).2.keys.isSome = true := by
          rw [hacc.before, hk]
          exact ⟨rfl, rfl⟩
        rw [if_pos hused, hbody, Option.map_some] at hstep
        rw [← hstep]
        refine ⟨fun a ha => ?_, fun pair hpair => ?_, fun keys' hk' => ?_⟩
        · rcases hw.answered a ha with ⟨f, secret, hf, hpub, hmem, hd⟩
          exact ⟨f, secret, hf, hpub, List.mem_cons_of_mem _ hmem, hd⟩
        · rcases hw.own pair (hacc.ephemeral.symm.trans hpair) with ⟨hp, hmem, hother⟩
          exact ⟨hp, List.mem_cons_of_mem _ hmem, hother⟩
        · have hsame : keys' = keys := Option.some.inj (hk'.symm.trans hk)
          -- A client that has not drawn its key pair has no private key.
          cases hown : w.client.ephemeral with
          | none =>
              rw [hown, Option.getD_none, hC.unset _ _ rfl] at hsecret
              exact absurd hsecret nofun
          | some own =>
              rw [hown, Option.getD_some] at hsecret
              refine ⟨own, response.serverEphemeralPub, secret, hacc.ephemeral.trans hown, rfl,
                ⟨a, ha, hserver⟩, hsecret, ?_⟩
              show C.deriveAeadKeys secret (w.client.onMessage C fresh type body).2.epoch = _
              rw [hacc.epoch, hsame]
              exact hkeys
  | restart clientTime =>
      rw [Exchange.step, Option.some.injEq] at hstep
      rw [← hstep]
      refine ⟨hw.answered, fun pair hpair => ?_, fun keys hkeys => ?_⟩
      · exact absurd hpair (by
          simp only [HandshakeClient.start, reduceCtorEq, not_false_eq_true])
      · exact absurd hkeys (by
          simp only [HandshakeClient.start, reduceCtorEq, not_false_eq_true])

theorem honest_start (staticPriv : Bytes) (pinnedStaticPub : EcPubKey) (clientTime : UInt64) :
    (Exchange.start staticPriv pinnedStaticPub clientTime : Exchange Key).Honest C Gen where
  answered := fun a ha => absurd ha List.not_mem_nil
  own := fun pair h => absurd h (by
    simp only [start, HandshakeClient.start, reduceCtorEq, not_false_eq_true])
  accepted := fun keys h => absurd h (by
    simp only [start, HandshakeClient.start, reduceCtorEq, not_false_eq_true])

/-- A connection that has the keys of the client was made for the client's own key, with the
    server's key and the epoch that the client used. -/
theorem Honest.of_keys (hC : C.Ideal Gen) (hw : w.Honest C Gen)
    {own : EcdhKeyPair} {server : EcPubKey} {secret : SharedSecret} {keys : Key × Key}
    (hown : w.client.ephemeral = some own) (hd : C.deriveSharedSecret own server = some secret)
    (hderived : C.deriveAeadKeys secret w.client.epoch = some keys) {a : Answer Key}
    (ha : a ∈ w.answers) (hsame : a.keys = keys) :
    a.clientPub = own.publicKey ∧ a.response.serverEphemeralPub = server ∧
      a.response.epoch = w.client.epoch := by
  rcases hw.answered a ha with ⟨fresh, secret', hfresh, hpub, _, hd', hderived'⟩
  rw [hsame] at hderived'
  rcases hC.keys _ _ _ _ _ hderived' hderived with ⟨hsecret, hepoch⟩
  rw [hsecret] at hd'
  rcases hw.own own hown with ⟨hownGen, _, hother⟩
  rcases hC.apart _ _ _ _ _ hfresh hownGen hd' hd with ⟨hkey, hclient⟩ | ⟨hcross, _⟩
  · exact ⟨hclient, hpub.trans hkey, hepoch⟩
  · -- The client's key is not one of the server's.
    exact absurd (hpub.trans hcross) (hother a ha)

/-- In every run in which no signature is forged, a client that has accepted a response used a
    key that the server made and signed for a connection. A connection that has the keys of
    the client was made for the client's own key, with the server's key and the epoch that the
    client used. -/
theorem accepted_key (hC : C.Ideal Gen) {staticPriv : Bytes} {pinnedStaticPub : EcPubKey}
    {clientTime : UInt64} {w : Exchange Key}
    (hreach : Reaches (Exchange.step C) (Unforged C Gen)
      (Exchange.start staticPriv pinnedStaticPub clientTime) w)
    {keys : Key × Key} (hkeys : w.client.keys = some keys) :
    ∃ own server secret, w.client.ephemeral = some own ∧ w.used = some server ∧
      (∃ a ∈ w.answers, a.response.serverEphemeralPub = server) ∧
      C.deriveSharedSecret own server = some secret ∧
      C.deriveAeadKeys secret w.client.epoch = some keys ∧
      ∀ a ∈ w.answers, a.keys = keys → a.clientPub = own.publicKey ∧
        a.response.serverEphemeralPub = server ∧ a.response.epoch = w.client.epoch := by
  have hw : w.Honest C Gen :=
    hreach.invariant (fun _ l _ hw hfair hstep => hw.step hC l hfair hstep)
      (honest_start staticPriv pinnedStaticPub clientTime)
  rcases hw.accepted keys hkeys with ⟨own, server, secret, hown, hused, hserver, hd, hderived⟩
  exact ⟨own, server, secret, hown, hused, hserver, hd, hderived, fun a ha hsame =>
    hw.of_keys hC hown hd hderived ha hsame⟩

/-- The client gets a cookie and sends its key. -/
def getsCookie : ExchangeLabel := .deliver (sampleKeyPair 0) .cookie (List.replicate 32 0)

/-- The server answers, for the token seven. -/
def answersClient : ExchangeLabel :=
  .answer (sampleKeyPair 1) 7 0
    (CookieResponseBody.encode ⟨List.Vector.replicate _ 0, (sampleKeyPair 0).publicKey⟩)

/-- The client gets the response, with this token. -/
def getsResponse (token : UInt64) : ExchangeLabel :=
  .deliver (sampleKeyPair 2) .handshakeResponse (HandshakeResponseBody.encode
    ⟨(sampleKeyPair 1).publicKey, (sampleKeyPair 1).publicKey, token, 0⟩)

def sampleExchange : Exchange (SharedSecret × UInt32 × Bool) :=
  .start [] (List.Vector.replicate _ 0) 0

/-- The run forges no signature, whatever the token is. -/
theorem reaches_getsResponse (token : UInt64) (w : Exchange (SharedSecret × UInt32 × Bool))
    (h : runLabels (Exchange.step idealProvider) sampleExchange
      [getsCookie, answersClient, getsResponse token] = some w) :
    Reaches (Exchange.step idealProvider) (Unforged idealProvider Seeded) sampleExchange w := by
  simp only [runLabels, Option.bind_eq_some_iff, Option.some.injEq] at h
  rcases h with ⟨w₁, h₁, w₂, h₂, w₃, h₃, rfl⟩
  have hw₁ := Option.some.inj h₁
  have hw₂ := Option.some.inj h₂
  have hanswers : (w₂.answers.any fun a =>
      a.response.serverEphemeralPub = (sampleKeyPair 1).publicKey) = true := by
    rw [← hw₂, ← hw₁]
    decide +kernel
  have hdrawn₁ : w₁.drawn = [(sampleKeyPair 0).publicKey] := by
    rw [← hw₁]
    rfl
  have hdrawn₂ : w₂.drawn = [(sampleKeyPair 1).publicKey, (sampleKeyPair 0).publicKey] := by
    rw [← hw₂, ← hdrawn₁]
  have hfair₁ : Unforged idealProvider Seeded sampleExchange getsCookie :=
    ⟨⟨0, rfl⟩, List.not_mem_nil, fun htype => by cases htype⟩
  have hfair₂ : Unforged idealProvider Seeded w₁ answersClient := by
    refine ⟨⟨1, rfl⟩, ?_⟩
    rw [hdrawn₁]
    decide +kernel
  have hfair₃ : Unforged idealProvider Seeded w₂ (getsResponse token) := by
    refine ⟨⟨2, rfl⟩, ?_, fun _ response hbody _ => ?_⟩
    · rw [hdrawn₂]
      decide +kernel
    · rw [decodeHandshakeResponse_encode, Option.some.injEq] at hbody
      rcases List.any_eq_true.mp hanswers with ⟨a, ha, hserver⟩
      rw [decide_eq_true_eq] at hserver
      refine ⟨a, ha, ?_⟩
      rw [hserver, ← hbody]
  exact ((Reaches.refl.tail _ hfair₁ h₁).tail _ hfair₂ h₂).tail _ hfair₃ h₃

/-- The response arrives as it was sent. -/
theorem accepted_key_unchanged :
    ∃ w, Reaches (Exchange.step idealProvider) (Unforged idealProvider Seeded) sampleExchange w ∧
      ∃ keys, w.client.keys = some keys ∧ w.client.token = 7 ∧
        ∀ a ∈ w.answers, a.keys = keys → w.used = some a.response.serverEphemeralPub := by
  have hrun : ((runLabels (Exchange.step idealProvider) sampleExchange
      [getsCookie, answersClient, getsResponse 7]).any fun w =>
        w.client.keys.isSome ∧ w.client.token = 7) = true := by
    decide +kernel
  rcases (Option.any_eq_true _ _).mp hrun with ⟨w, hw, htest⟩
  rw [decide_eq_true_eq] at htest
  rcases Option.isSome_iff_exists.mp htest.1 with ⟨keys, hkeys⟩
  have hreach := reaches_getsResponse 7 w hw
  rcases accepted_key idealProvider_ideal hreach hkeys with
    ⟨own, server, secret, _, hused, _, _, _, hall⟩
  refine ⟨w, hreach, keys, hkeys, htest.2, fun a ha hsame => ?_⟩
  rw [(hall a ha hsame).2.1]
  exact hused

/-- The token is changed on the way. The client accepts, and its token is in no answer. -/
theorem token_changed :
    ∃ w, Reaches (Exchange.step idealProvider) (Unforged idealProvider Seeded) sampleExchange w ∧
      w.client.keys.isSome = true ∧ ¬ w.Authentic := by
  have hrun : ((runLabels (Exchange.step idealProvider) sampleExchange
      [getsCookie, answersClient, getsResponse 8]).any fun w =>
        w.client.keys.isSome ∧
        (w.answers.all fun a => w.client.token ≠ a.response.connectionToken) = true) = true := by
    decide +kernel
  rcases (Option.any_eq_true _ _).mp hrun with ⟨w, hw, htest⟩
  rw [decide_eq_true_eq] at htest
  refine ⟨w, reaches_getsResponse 8 w hw, htest.1, ?_⟩
  rintro ⟨own, _, a, ha, _, _, htoken, _⟩
  have hne := List.all_eq_true.mp htest.2 a ha
  rw [decide_eq_true_eq] at hne
  exact hne htoken

end Exchange

end Net

end EarthRise
