import EarthRise.Core.FleetControl
import EarthRise.Theory.Serde

/-!
# What the Controller Asks For

The controller acts on what it is shown. What it keeps, the selection, the groups and the open
menu, is about entities that some frame has shown, and so is every command that leaves it.

The facts are stated with what has been shown as a parameter, which only grows: an entity with
a kind and an owner, to a player. A handler keeps the facts if all that its own frame shows is
among what has been shown.

## Main definitions

* `targetedVerbs`: The verbs that can be asked of a target.
* `Own`, `Grounded`: The player's own units, and what the controller keeps.
* `Asked`: The commands that can leave the controller.

## Theorems

* `nearestContact_mem`, `pickAnyEntity_mem`, `pickNearest_mem`: A pick is an entity.
* `handleFrame_sound`: A frame keeps what is grounded, and asks for what is grounded.
-/

namespace EarthRise

namespace Client

open Sim (EntityKind)
open Serde (FleetCommand encodeFleetCommand decodeFleetCommand)

/-! ## Picks -/

section

variable {F : Type} [Floating F]

/-- Whether an entity stands behind a pick. -/
def PickedFrom (entities : List (ReplicaEntity F)) (n : FleetCommandController.Nearest F) :
    Prop :=
  n.id ≠ 0 → ∃ e ∈ entities, e.valid = true ∧ e.networkId = n.id ∧ e.kind = n.kind ∧
    e.ownerPlayer = n.owner

theorem nearestContact_mem (rs : ReplicaSet F) (self : UInt32) (wx wz : F) :
    PickedFrom rs.entities (FleetCommandController.nearestContact rs self wx wz) := by
  unfold FleetCommandController.nearestContact
  refine List.foldlRecOn _ _ (fun h => absurd rfl h) fun best hbest e he => ?_
  split
  · exact hbest
  · rename_i hvalid
    dsimp only
    split
    · intro _
      refine ⟨e, he, ?_, rfl, rfl, rfl⟩
      cases hv : e.valid with
      | true => rfl
      | false => simp [hv] at hvalid
    · exact hbest

theorem pickAnyEntity_mem (i : FleetInput F) :
    PickedFrom i.replica.entities (FleetCommandController.pickAnyEntity i) := by
  unfold FleetCommandController.pickAnyEntity
  refine List.foldlRecOn _ _ (fun h => absurd rfl h) fun best hbest e he => ?_
  split
  · exact hbest
  · rename_i hvalid
    dsimp only
    split
    · exact hbest
    · split
      · exact hbest
      · split
        · intro _
          refine ⟨e, he, ?_, rfl, rfl, rfl⟩
          cases hv : e.valid with
          | true => rfl
          | false => simp [hv] at hvalid
        · exact hbest

theorem pickNearest_mem (pts : List (ScreenPoint F)) (px py radiusPx : F)
    (h : pickNearest pts px py radiusPx ≠ 0) :
    ∃ p ∈ pts, p.id = pickNearest pts px py radiusPx := by
  revert h
  unfold pickNearest
  refine List.foldlRecOn (motive := fun best : UInt32 × F => best.1 ≠ 0 → ∃ p ∈ pts, p.id = best.1)
    _ _ (fun h => absurd rfl h) fun best hbest p hp => ?_
  split
  · exact hbest
  · dsimp only
    split
    · exact fun _ => ⟨p, hp, rfl⟩
    · exact hbest

theorem mem_pickBox {pts : List (ScreenPoint F)} {x0 y0 x1 y1 : F} {u : UInt32}
    (h : u ∈ pickBox pts x0 y0 x1 y1) : ∃ p ∈ pts, p.id = u := by
  obtain ⟨p, hp, rfl⟩ := List.mem_map.mp h
  exact ⟨p, (List.mem_filter.mp hp).1, rfl⟩

theorem length_pickBox_le (pts : List (ScreenPoint F)) (x0 y0 x1 y1 : F) :
    (pickBox pts x0 y0 x1 y1).length ≤ pts.length := by
  unfold pickBox
  rw [List.length_map]
  exact List.length_filter_le _ _

end

/-! ## Being grounded -/

/-- The verbs that the menu can ask of a target. -/
def targetedVerbs (t : SmartTarget) : List IntentType :=
  ((buildContextMenu t true).filter fun a => !a.needsPoint && !a.needsBeacon).map
    MenuAction.intent

/-- The click on the radar asks for the first row of the menu. -/
theorem resolveSmartAction_mem {t : SmartTarget} (hspace : t ≠ .emptySpace)
    (hbeacon : t ≠ .beacon) : resolveSmartAction t ∈ targetedVerbs t := by
  cases t with
  | emptySpace => exact absurd rfl hspace
  | beacon => exact absurd rfl hbeacon
  | ally => decide
  | enemy => decide
  | resourceNode => decide
  | loot => decide

/-- What has been shown: an entity with a kind and an owner, to a player. -/
abbrev Showing := UInt32 → EntityKind → UInt32 → UInt32 → Prop

/-- A ship or a base that a player was shown as their own. -/
def Own (shown : Showing) (u : UInt32) : Prop :=
  ∃ kind player, shown u kind player player ∧ (kind = EntityKind.ship ∨ kind = EntityKind.base)

section

variable {F : Type} {shown : Showing} {c : FleetCommandController F} {shown' : Showing}

/-- What the controller keeps is about what has been shown. -/
structure Grounded (shown : Showing) (c : FleetCommandController F) : Prop where
  selection : ∀ u ∈ c.selection, Own shown u
  selected : c.selection.length ≤ maxEntities
  groups : ∀ g, ∀ u ∈ c.controlGroups.groups g, Own shown u
  grouped : ∀ g, (c.controlGroups.groups g).length ≤ maxEntities
  menu : ∀ a ∈ c.ctxActions, ∃ kind owner self, shown c.ctxTarget kind owner self ∧
    a ∈ buildContextMenu (classifyTarget kind owner self) true

/-- A command that is about what has been shown. A click on something that nothing can be done
    with is a move to the origin of the universe. -/
structure Asked (shown : Showing) (player : UInt32 → Prop) (cmd : FleetCommand F) : Prop where
  some_unit : cmd.units ≠ []
  units_le : cmd.units.length ≤ maxEntities
  no_beacon : cmd.beacon = []
  at_once : cmd.queue = false
  verb : (cmd.intent = IntentType.build.code ∧ ∃ p, player p ∧ cmd.units = [p]) ∨
    (∀ u ∈ cmd.units, Own shown u) ∧
      (cmd.intent = IntentType.stop.code ∨
        (cmd.intent = IntentType.move.code ∧ cmd.targetPoint = ⟨0, 0, 0⟩ ∧
          ∃ id kind owner self, shown id kind owner self ∧
            classifyTarget kind owner self = .emptySpace) ∨
        ∃ kind owner self, ∃ verb ∈ targetedVerbs (classifyTarget kind owner self),
          shown cmd.targetNetId kind owner self ∧ cmd.intent = verb.code)

/-- Bytes that the server reads as a command that is about what has been shown. -/
def AskedBody (F : Type) [FloatBits F] (shown : Showing) (player : UInt32 → Prop)
    (body : List UInt8) : Prop :=
  ∃ cmd : FleetCommand F, decodeFleetCommand body = some cmd ∧ Asked shown player cmd

theorem Own.mono (hmono : ∀ id kind owner self,
    shown id kind owner self → shown' id kind owner self) {u : UInt32} (h : Own shown u) :
    Own shown' u := by
  obtain ⟨kind, player, hshown, hkind⟩ := h
  exact ⟨kind, player, hmono _ _ _ _ hshown, hkind⟩

theorem Grounded.mono (hmono : ∀ id kind owner self,
    shown id kind owner self → shown' id kind owner self)
    (h : Grounded shown c) : Grounded shown' c where
  selection u hu := (h.selection u hu).mono hmono
  selected := h.selected
  groups g u hu := (h.groups g u hu).mono hmono
  grouped := h.grouped
  menu a ha := by
    obtain ⟨kind, owner, self, hshown, hmem⟩ := h.menu a ha
    exact ⟨kind, owner, self, hmono _ _ _ _ hshown, hmem⟩

/-! ## Keys -/

/-- Only the place of a box and the last target change. -/
theorem Grounded.of_same {c c' : FleetCommandController F} (h : Grounded shown c)
    (hgroups : c'.controlGroups = c.controlGroups) (hselection : c'.selection = c.selection)
    (htarget : c'.ctxTarget = c.ctxTarget) (hactions : c'.ctxActions = c.ctxActions) :
    Grounded shown c' where
  selection := by rw [hselection]; exact h.selection
  selected := by rw [hselection]; exact h.selected
  groups := by rw [hgroups]; exact h.groups
  grouped := by rw [hgroups]; exact h.grouped
  menu := by rw [htarget, hactions]; exact h.menu

theorem setControlGroup_grounded (h : Grounded shown c)
    (group : Int) : Grounded shown (c.setControlGroup group) := by
  have hset : ∀ g, (∀ u ∈ (c.controlGroups.set group c.selection).groups g, Own shown u) ∧
      ((c.controlGroups.set group c.selection).groups g).length ≤ maxEntities := by
    intro g
    unfold ControlGroups.set
    split
    · exact ⟨h.groups g, h.grouped g⟩
    · dsimp only
      split
      · -- sorting keeps the units, and leaving out the second ones takes some of them
        have hsub := List.destutter_sublist (· ≠ ·) (c.selection.mergeSort fun a b => a ≤ b)
        refine ⟨fun u hu => h.selection u (List.mem_mergeSort.mp (hsub.subset hu)), ?_⟩
        have hlen := hsub.length_le
        rw [List.length_mergeSort] at hlen
        exact hlen.trans h.selected
      · exact ⟨h.groups g, h.grouped g⟩
  exact { selection := h.selection, selected := h.selected, groups := fun g => (hset g).1
          grouped := fun g => (hset g).2, menu := h.menu }

theorem recallControlGroup_grounded (h : Grounded shown c)
    (group : Int) : Grounded shown (c.recallControlGroup group) := by
  have hrecall : (∀ u ∈ c.controlGroups.recallGroup group, Own shown u) ∧
      (c.controlGroups.recallGroup group).length ≤ maxEntities := by
    unfold ControlGroups.recallGroup
    split
    · exact ⟨h.groups _, h.grouped _⟩
    · exact ⟨fun _ hu => absurd hu List.not_mem_nil, Nat.zero_le _⟩
  exact { h with selection := hrecall.1, selected := hrecall.2 }

/-- What a frame shows to a player. -/
def Shows (shown : Showing) (rs : ReplicaSet F) (self : UInt32) : Prop :=
  ∀ e ∈ rs.entities, shown e.networkId e.kind e.ownerPlayer self

theorem selectAllOwnShips_grounded (h : Grounded shown c)
    {session : Option UInt32} {rs : ReplicaSet F} (hshows : Shows shown rs (session.getD 0)) :
    Grounded shown (c.selectAllOwnShips session rs) := by
  refine { h with selection := ?_, selected := ?_ }
  · intro u hu
    obtain ⟨e, he, rfl⟩ := List.mem_map.mp hu
    obtain ⟨hmem, hown⟩ := List.mem_filter.mp he
    simp only [Bool.and_eq_true, decide_eq_true_eq] at hown
    have hshown := hshows e hmem
    rw [hown.1.2] at hshown
    exact ⟨e.kind, _, hshown, Or.inl hown.2⟩
  · unfold FleetCommandController.selectAllOwnShips
    dsimp only
    rw [List.length_map]
    exact (List.length_filter_le _ _).trans rs.bounded

variable [Floating F]

theorem grounded_fresh :
    Grounded shown (FleetCommandController.fresh : FleetCommandController F) where
  selection _ hu := absurd hu List.not_mem_nil
  selected := Nat.zero_le _
  groups _ _ hu := absurd hu List.not_mem_nil
  grouped _ := Nat.zero_le _
  menu _ ha := absurd ha List.not_mem_nil

/-! ## Sending -/

section

variable {player : UInt32 → Prop} {c : FleetCommandController F}

/-- A smart command for a target that is not a beacon. -/
theorem makeSmartCommand_asked (h : Grounded shown c)
    (hne : c.selection ≠ []) {id : UInt32} {kind : EntityKind} {owner self : UInt32}
    (hshown : shown id kind owner self) (hbeacon : classifyTarget kind owner self ≠ .beacon) :
    Asked shown player (makeSmartCommand (classifyTarget kind owner self) c.selection id
      ⟨0, 0, 0⟩ false [] : FleetCommand F) := by
  unfold makeSmartCommand
  by_cases hspace : classifyTarget kind owner self = .emptySpace
  · rw [if_pos hspace]
    refine { some_unit := hne, units_le := h.selected, no_beacon := rfl, at_once := rfl
             verb := Or.inr ⟨h.selection, Or.inr (Or.inl
               ⟨?_, rfl, id, kind, owner, self, hshown, hspace⟩)⟩ }
    dsimp only
    rw [hspace]
    rfl
  · rw [if_neg hspace, if_neg hbeacon]
    exact { some_unit := hne, units_le := h.selected, no_beacon := rfl, at_once := rfl
            verb := Or.inr ⟨h.selection, Or.inr (Or.inr
              ⟨kind, owner, self, _, resolveSmartAction_mem hspace hbeacon, hshown, rfl⟩)⟩ }

variable [FloatBits F]

omit [Floating F] in
/-- A command of the controller fits the lengths of the wire. -/
theorem askedBody_of_asked {cmd : FleetCommand F} (h : Asked shown player cmd) :
    AskedBody F shown player (encodeFleetCommand cmd) := by
  have hunits : cmd.units.length ≤ 65535 := h.units_le.trans (by decide)
  have hbeacon : cmd.beacon.length ≤ 65535 := by
    rw [h.no_beacon]
    exact Nat.zero_le _
  refine ⟨cmd, ?_, h⟩
  unfold decodeFleetCommand encodeFleetCommand
  rw [Serde.decode_encode (Serde.codes_writeFleetCommand cmd hunits hbeacon)]
  rfl

omit [Floating F] in
theorem sendFleet_asked {session : Option UInt32}
    {cmd : FleetCommand F} (h : c.selection ≠ [] → Asked shown player cmd) :
    ∀ body ∈ c.sendFleet session cmd, AskedBody F shown player body := by
  intro body hbody
  unfold FleetCommandController.sendFleet at hbody
  split at hbody
  · exact absurd hbody List.not_mem_nil
  · split at hbody
    · exact absurd hbody List.not_mem_nil
    · rename_i hempty
      rw [List.mem_singleton] at hbody
      rw [hbody]
      refine askedBody_of_asked (h fun hnil => ?_)
      rw [hnil] at hempty
      exact hempty rfl

theorem sendBuild_asked {session : Option UInt32} (hplayer : ∀ p, session = some p → player p) :
    ∀ body ∈ FleetCommandController.sendBuild (F := F) session,
      AskedBody F shown player body := by
  intro body hbody
  unfold FleetCommandController.sendBuild at hbody
  split at hbody
  · exact absurd hbody List.not_mem_nil
  · rename_i p
    rw [List.mem_singleton] at hbody
    rw [hbody]
    exact askedBody_of_asked
      { some_unit := List.cons_ne_nil _ _, units_le := Nat.le_of_ble_eq_true rfl, no_beacon := rfl
        at_once := rfl, verb := Or.inl ⟨rfl, p, hplayer p rfl, rfl⟩ }

theorem sendStop_asked (h : Grounded shown c)
    (session : Option UInt32) : ∀ body ∈ c.sendStop session, AskedBody F shown player body :=
  sendFleet_asked fun hne =>
    { some_unit := hne, units_le := h.selected, no_beacon := rfl, at_once := rfl
      verb := Or.inr ⟨h.selection, Or.inl rfl⟩ }

end

/-! ## Frames -/

theorem screenPoint_id (i : FleetInput F) (e : ReplicaEntity F) :
    (FleetCommandController.screenPoint i e).id = e.networkId := by
  unfold FleetCommandController.screenPoint
  dsimp only
  split
  · rfl
  · rfl

/-- What is picked is the player's own, and no more than is shown. -/
theorem picked_own {i : FleetInput F}
    (hshows : Shows shown i.replica i.self) :
    (∀ u ∈ c.picked i, Own shown u) ∧ (c.picked i).length ≤ maxEntities := by
  have hpts : ∀ p ∈ (FleetCommandController.ownUnits i.replica i.self).map
      (FleetCommandController.screenPoint i), Own shown p.id := by
    intro p hp
    obtain ⟨e, he, rfl⟩ := List.mem_map.mp hp
    obtain ⟨hmem, hown⟩ := List.mem_filter.mp he
    simp only [Bool.and_eq_true, decide_eq_true_eq] at hown
    have hshown := hshows e hmem
    rw [hown.1.2] at hshown
    rw [screenPoint_id]
    exact ⟨e.kind, _, hshown, hown.2⟩
  unfold FleetCommandController.picked
  dsimp only
  split
  · constructor
    · intro u hu
      obtain ⟨p, hp, rfl⟩ := mem_pickBox hu
      exact hpts p hp
    · refine (length_pickBox_le _ _ _ _ _).trans ?_
      rw [List.length_map]
      exact (List.length_filter_le _ _).trans i.replica.bounded
  · split
    · rename_i hhit
      obtain ⟨p, hp, hid⟩ := pickNearest_mem _ _ _ _ hhit
      refine ⟨fun u hu => ?_, Nat.le_of_ble_eq_true rfl⟩
      rw [List.mem_singleton.mp hu, ← hid]
      exact hpts p hp
    · exact ⟨fun _ hu => absurd hu List.not_mem_nil, Nat.zero_le _⟩

theorem handleViewportSelection_grounded (h : Grounded shown c)
    {i : FleetInput F} (hshows : Shows shown i.replica i.self) :
    Grounded shown (c.handleViewportSelection i) := by
  have hstart : Grounded shown (c.startBox i) := by
    unfold FleetCommandController.startBox
    split
    · exact h.of_same rfl rfl rfl rfl
    · exact h
  unfold FleetCommandController.handleViewportSelection
  dsimp only
  split
  · exact hstart
  · split
    · exact hstart.of_same rfl rfl rfl rfl
    · exact { hstart with selection := (picked_own hshows).1, selected := (picked_own hshows).2 }

section

variable [FloatBits F] {player : UInt32 → Prop} {c : FleetCommandController F} {i : FleetInput F}

/-- A controller that keeps what is grounded, and bodies that ask for what is grounded. -/
def Sound (shown : Showing) (player : UInt32 → Prop)
    (r : FleetCommandController F × Sent) : Prop :=
  Grounded shown r.1 ∧ ∀ body ∈ r.2, AskedBody F shown player body

omit [Floating F] in
theorem Sound.silent (h : Grounded shown c) :
    Sound shown player (c, []) :=
  ⟨h, fun _ hbody => absurd hbody List.not_mem_nil⟩

variable (player) in
theorem handleRadarClick_sound (h : Grounded shown c)
    (hshows : Shows shown i.replica i.self) (fx fz : F) :
    Sound shown player (c.handleRadarClick i fx fz) := by
  unfold FleetCommandController.handleRadarClick
  split
  · exact Sound.silent h
  split
  · exact Sound.silent h
  dsimp only
  split
  · exact Sound.silent h
  split
  · exact Sound.silent h
  rename_i hnear
  have htarget : ∀ id, Grounded shown { c with targetNetId := id } :=
    fun id => h.of_same rfl rfl rfl rfl
  split
  · exact Sound.silent (htarget _)
  · rename_i hbeacon
    refine ⟨htarget _, sendFleet_asked fun hne => ?_⟩
    obtain ⟨e, he, -, hid, hkind, howner⟩ := nearestContact_mem i.replica i.self _ _
      (fun h0 => hnear (Or.inl h0))
    have hshown := hshows e he
    rw [hid, hkind, howner] at hshown
    exact makeSmartCommand_asked h hne hshown hbeacon

variable (player) in
theorem issueMenuAction_sound (h : Grounded shown c)
    (session : Option UInt32) {a : MenuAction} (ha : a ∈ c.ctxActions) :
    Sound shown player (c.issueMenuAction session a) := by
  unfold FleetCommandController.issueMenuAction
  split
  · exact Sound.silent h
  · rename_i hplain
    refine ⟨h.of_same rfl rfl rfl rfl, sendFleet_asked fun hne => ?_⟩
    obtain ⟨kind, owner, self, hshown, hmem⟩ := h.menu a ha
    simp only [Bool.or_eq_true, not_or, Bool.not_eq_true] at hplain
    have hverb : a.intent ∈ targetedVerbs (classifyTarget kind owner self) := by
      refine List.mem_map.mpr ⟨a, List.mem_filter.mpr ⟨hmem, ?_⟩, rfl⟩
      rw [hplain.1.1, hplain.1.2]
      rfl
    exact { some_unit := hne, units_le := h.selected, no_beacon := rfl, at_once := rfl
            verb := Or.inr ⟨h.selection, Or.inr (Or.inr
              ⟨kind, owner, self, a.intent, hverb, hshown, rfl⟩)⟩ }

theorem mem_of_row {actions : List MenuAction} {row : Int} {a : MenuAction}
    (h : (if 0 ≤ row then actions[row.toNat]? else none) = some a) : a ∈ actions := by
  split at h
  · exact List.mem_of_getElem? h
  · cases h

variable (player) in
theorem handleContextMenu_sound (h : Grounded shown c)
    (hshows : Shows shown i.replica i.self) :
    Sound shown player ((c.handleContextMenu i).1, (c.handleContextMenu i).2.1) := by
  unfold FleetCommandController.handleContextMenu
  split
  · dsimp only
    split
    · rename_i a hrow
      obtain ⟨hkept, hsent⟩ := issueMenuAction_sound player h i.session
        (mem_of_row hrow)
      exact ⟨hkept.of_same rfl rfl rfl rfl, hsent⟩
    · exact Sound.silent (h.of_same rfl rfl rfl rfl)
  split
  · dsimp only
    split
    · split
      · rename_i hhit
        split
        · exact Sound.silent h
        · refine Sound.silent { h with menu := ?_ }
          intro a ha
          obtain ⟨e, he, -, hid, hkind, howner⟩ := pickAnyEntity_mem i hhit
          have hshown := hshows e he
          rw [hid, hkind, howner] at hshown
          refine ⟨_, _, _, hshown, ?_⟩
          dsimp only at ha
          cases hsel : !c.selection.isEmpty with
          | true => rwa [hsel] at ha
          | false =>
              rw [hsel] at ha
              exact absurd ha List.not_mem_nil
      · exact Sound.silent (h.of_same rfl rfl rfl rfl)
    · exact Sound.silent h
  · exact Sound.silent h

/-- What a frame keeps and asks for is about what has been shown, with what it shows itself. -/
theorem handleFrame_sound (h : Grounded shown c)
    (hshows : Shows shown i.replica i.self) (fx fz : F) :
    Sound shown player (c.handleFrame i fx fz) := by
  obtain ⟨hmenu, hsent⟩ := handleContextMenu_sound player h hshows
  unfold FleetCommandController.handleFrame
  dsimp only
  split
  · exact ⟨hmenu, hsent⟩
  · obtain ⟨hradar, hsent'⟩ := handleRadarClick_sound player hmenu hshows fx fz
    refine ⟨handleViewportSelection_grounded hradar hshows, fun body hbody => ?_⟩
    rcases List.mem_append.mp hbody with hb | hb
    · exact hsent body hb
    · exact hsent' body hb

end

end

end Client

end EarthRise
