import EarthRise.Core.SnapshotJobs
import EarthRise.Lib.Exact

/-!
# The Job Pool is the Serial Encoder

However many workers encode the clients' snapshots, the results and what is left in
the tables are those of one worker.

A build reads the universe, which no build changes, and the tables of its own
client. So two clients' builds are independent jobs, and the rules of a pool of
independent jobs apply.

## Theorems

* `independent_build`: Builds of different clients do not see each other.
* `encodeClientsSerial_eq`, `encodeParts_eq`: The encoders are runs of jobs.
* `pooled_eq_serial`: The pool against the serial encoder.
-/

namespace EarthRise

namespace Sim

open Pool

namespace SharedUniverse

theorem tables_putTables_ne (s : SharedUniverse) {k k' : NetId} (t : ClientTables)
    (h : k ≠ k') : (s.putTables k' t).tables k = s.tables k := by
  unfold putTables tables
  simp only [OrdMap.find?_insert_ne _ _ _ _ h]

theorem putTables_comm (s : SharedUniverse) {k k' : NetId} (t t' : ClientTables) (h : k ≠ k') :
    (s.putTables k' t').putTables k t = (s.putTables k t).putTables k' t' := by
  have hswap : ∀ {ν : Type} (m : OrdMap NetId ν) (v v' : ν),
      (m.insert k' v').insert k v = (m.insert k v).insert k' v' :=
    fun m v v' => OrdMap.insert_comm m k k' v v' h
  unfold putTables
  simp only [hswap]

end SharedUniverse

variable (sqrt : ℚ → ℚ) (byteBudget : Nat)

/-- One client's job: its result and what the cap dropped of it. -/
def encodeJob (c : NetId) (s : SharedUniverse) : (EncodeResult × Nat) × SharedUniverse :=
  let r := SharedUniverse.buildClientSnapshot sqrt s c byteBudget
  ((⟨c, r.1.snap⟩, r.1.capped), r.2)

/-- A build leaves the universe and the other clients' tables alone. -/
theorem independent_build : Independent (encodeJob sqrt byteBudget) where
  result k k' s h := by
    unfold encodeJob SharedUniverse.buildClientSnapshot
    simp only [SharedUniverse.tables_putTables_ne s _ h]
    rfl
  commute k k' s h := by
    unfold encodeJob SharedUniverse.buildClientSnapshot
    simp only [SharedUniverse.tables_putTables_ne s _ h,
      SharedUniverse.tables_putTables_ne s _ h.symm]
    exact SharedUniverse.putTables_comm s _ _ h

theorem encodeClientsSerial_foldl (clients : List NetId) (out : List EncodeResult) (capped : Nat)
    (s : SharedUniverse) :
    clients.foldl
      (fun acc c =>
        let r := SharedUniverse.buildClientSnapshot sqrt acc.2 c byteBudget
        ((acc.1.1 ++ [⟨c, r.1.snap⟩], acc.1.2 + r.1.capped), r.2))
      ((out, capped), s) =
      ((out ++ (serial (encodeJob sqrt byteBudget) s clients).1.map Prod.fst,
        capped + ((serial (encodeJob sqrt byteBudget) s clients).1.map Prod.snd).sum),
        (serial (encodeJob sqrt byteBudget) s clients).2) := by
  induction clients generalizing out capped s with
  | nil => simp only [List.foldl_nil, serial, List.map_nil, List.append_nil, List.sum_nil,
      Nat.add_zero]
  | cons c clients ih =>
      rw [List.foldl_cons]
      refine (ih _ _ _).trans ?_
      rw [serial_cons]
      simp only [List.map_cons, List.sum_cons, List.append_assoc, List.singleton_append,
        Nat.add_assoc]
      rfl

/-- The serial encoder runs the jobs one after another. -/
theorem encodeClientsSerial_eq (s : SharedUniverse) (clients : List NetId) :
    encodeClientsSerial sqrt s clients byteBudget =
      (((serial (encodeJob sqrt byteBudget) s clients).1.map Prod.fst,
        ((serial (encodeJob sqrt byteBudget) s clients).1.map Prod.snd).sum),
        (serial (encodeJob sqrt byteBudget) s clients).2) := by
  refine (encodeClientsSerial_foldl sqrt byteBudget clients [] 0 s).trans ?_
  rw [List.nil_append, Nat.zero_add]

theorem encodeParts_foldl (parts : List (List NetId)) (out : List (List EncodeResult × Nat))
    (s : SharedUniverse) :
    parts.foldl
      (fun acc part =>
        let r := encodeClientsSerial sqrt acc.2 part byteBudget
        (acc.1 ++ [r.1], r.2))
      (out, s) =
      (out ++ (workers (encodeJob sqrt byteBudget) s parts).1.map
          fun rs => (rs.map Prod.fst, (rs.map Prod.snd).sum),
        (workers (encodeJob sqrt byteBudget) s parts).2) := by
  induction parts generalizing out s with
  | nil => simp only [List.foldl_nil, workers, List.map_nil, List.append_nil]
  | cons part parts ih =>
      rw [List.foldl_cons]
      refine (ih _ _).trans ?_
      rw [workers_cons]
      simp only [encodeClientsSerial_eq, List.map_cons, List.append_assoc, List.singleton_append]

/-- The workers run their hands. -/
theorem encodeParts_eq (parts : List (List NetId)) (s : SharedUniverse) :
    encodeParts sqrt byteBudget parts s =
      ((workers (encodeJob sqrt byteBudget) s parts).1.map
          fun rs => (rs.map Prod.fst, (rs.map Prod.snd).sum),
        (workers (encodeJob sqrt byteBudget) s parts).2) := by
  refine (encodeParts_foldl sqrt byteBudget parts [] s).trans ?_
  rw [List.nil_append]

theorem sum_flatten_perm {α : Type} (g : α → Nat) (hands : List (List α)) (xs : List α)
    (h : hands.flatten.Perm xs) : (hands.map fun rs => (rs.map g).sum).sum = (xs.map g).sum := by
  rw [← (h.map g).sum_eq, List.map_flatten, List.sum_flatten, List.map_map]
  rfl

/-- For any clients of distinct ids, any budget and any number of workers, the pool
    encodes what the serial encoder encodes, in its order, and leaves the universe as
    it leaves it; and it counts the same entities as capped. -/
theorem pooled_eq_serial (s : SharedUniverse) (clients : List NetId) (workerCount : Nat)
    (h : clients.Nodup) :
    encodeClientsPooled sqrt s clients byteBudget workerCount =
        (some (encodeClientsSerial sqrt s clients byteBudget).1.1,
          (encodeClientsSerial sqrt s clients byteBudget).2) ∧
      encodeClientsPooledCounting sqrt s clients byteBudget workerCount =
        ((some (encodeClientsSerial sqrt s clients byteBudget).1.1,
          (encodeClientsSerial sqrt s clients byteBudget).1.2),
          (encodeClientsSerial sqrt s clients byteBudget).2) := by
  have hjobs := independent_build sqrt byteBudget
  have hw : 0 < if workerCount = 0 then 1 else workerCount := by
    split <;> omega
  generalize hcount : (if workerCount = 0 then 1 else workerCount) = w at hw
  have hparts : partitionClients clients workerCount = deal w clients := by
    unfold partitionClients
    rw [hcount]
  have hflat := flatten_deal w hw clients
  have hnodup : (deal w clients).flatten.Nodup := hflat.nodup_iff.mpr h
  have hstate : (workers (encodeJob sqrt byteBudget) s (deal w clients)).2 =
      (serial (encodeJob sqrt byteBudget) s clients).2 :=
    (gather_workers hjobs clients h w hw s).2
  have hresults : gather clients.length
      ((encodeParts sqrt byteBudget (deal w clients) s).1.map Prod.fst) =
        some (encodeClientsSerial sqrt s clients byteBudget).1.1 := by
    have hgather := gather_deal w hw
      (clients.map fun c => (encodeJob sqrt byteBudget c s).1.1)
    rw [List.length_map, deal_map] at hgather
    rw [encodeParts_eq, encodeClientsSerial_eq, workers_results hjobs _ hnodup,
      serial_results hjobs clients h]
    simp only [List.map_map, Function.comp_def]
    exact hgather
  have hcapped : ((encodeParts sqrt byteBudget (deal w clients) s).1.map Prod.snd).sum =
      (encodeClientsSerial sqrt s clients byteBudget).1.2 := by
    rw [encodeParts_eq, encodeClientsSerial_eq, workers_results hjobs _ hnodup,
      serial_results hjobs clients h]
    simp only [List.map_map, Function.comp_def]
    exact sum_flatten_perm (fun c => (encodeJob sqrt byteBudget c s).1.2) _ _ hflat
  have hafter : (encodeParts sqrt byteBudget (deal w clients) s).2 =
      (encodeClientsSerial sqrt s clients byteBudget).2 := by
    rw [encodeParts_eq, encodeClientsSerial_eq]
    exact hstate
  unfold encodeClientsPooled encodeClientsPooledCounting
  simp only [hparts, hresults, hcapped, hafter, and_self]

/-- Two players' bases in sight of each other, with no tables yet. -/
def sampleShared : SharedUniverse :=
  { sim := (ServerUniverse.fresh 0).step
      [.spawn ⟨⟨⟨0, 0, 0⟩, ⟨0, 0, 0⟩, 100, 1, 3, .base⟩, some 12000, 0⟩,
        .spawn ⟨⟨⟨500, 0, 0⟩, ⟨0, 0, 0⟩, 100, 2, 3, .base⟩, some 12000, 0⟩]
    weights := RelevanceWeights.default, visibleCap := 1
    baselines := OrdMap.empty, known := OrdMap.empty, lastSent := OrdMap.empty }

theorem pooled_eq_serial_sample :
    encodeClientsPooled id sampleShared [2, 1, 9] 1164 2 =
        (some (encodeClientsSerial id sampleShared [2, 1, 9] 1164).1.1,
          (encodeClientsSerial id sampleShared [2, 1, 9] 1164).2) ∧
      encodeClientsPooledCounting id sampleShared [2, 1, 9] 1164 2 =
        ((some (encodeClientsSerial id sampleShared [2, 1, 9] 1164).1.1,
          (encodeClientsSerial id sampleShared [2, 1, 9] 1164).1.2),
          (encodeClientsSerial id sampleShared [2, 1, 9] 1164).2) :=
  pooled_eq_serial id 1164 sampleShared [2, 1, 9] 2 (by decide)

end Sim

end EarthRise
