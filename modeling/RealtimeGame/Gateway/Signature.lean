import RealtimeGame.Gateway.BrpcRoomClient
import RealtimeGame.Gateway.Pushed
import RealtimeGame.Gateway.SseText
import RealtimeGame.Room.Unseen

/-!
# Gateway/Signature — two states with one signature are shown as one

The signature of a state has its frame, its phase, and the hit points and connection of each player; the
payload that is pushed shows five things more.  A room changes those with its phase only, so that in one run
the signatures of two states are equal exactly if the payloads are (`signature_faithful`).
-/

open Library

namespace RealtimeGame.Gateway

/-! ## The signature

From the text back to the frame, the phase and the players. -/

/-- What a signature has of one player. -/
def playerSignature (player : RoomPlayerSnapshot) : List Char :=
  player.playerId.toList ++ ':' :: ((toString player.hp).toList ++ [if player.online then '1' else '0'])

theorem toList_stateSignature_eq (snapshot : RoomSnapshot) : (stateSignature snapshot).toList =
    (toString snapshot.frame).toList ++ '|' :: ((toString snapshot.state.toInt).toList ++
      snapshot.players.flatMap fun player => '|' :: playerSignature player) := by
  have hfold : ∀ (players : List RoomPlayerSnapshot) (signature : String),
      (players.foldl (fun signature player => signature ++ "|" ++ player.playerId ++ ":" ++
        toString player.hp ++ if player.online then "1" else "0") signature).toList =
          signature.toList ++ players.flatMap fun player => '|' :: playerSignature player := by
    intro players
    induction players with
    | nil => exact fun signature => (List.append_nil _).symm
    | cons player players ih =>
      intro signature
      have honline : (if player.online then "1" else "0").toList = [if player.online then '1' else '0'] := by
        cases player.online <;> rfl
      rw [List.foldl_cons, ih, List.flatMap_cons, playerSignature]
      simp only [String.toList_append, List.append_assoc, List.cons_append, honline]
      rfl
  rw [stateSignature, hfold]
  simp only [String.toList_append, List.append_assoc]
  rfl

/-- The signatures of the players of one room tell hit points and connections. -/
theorem playerSignatures_inj {players players' : List RoomPlayerSnapshot}
    (hids : players.map (·.playerId) = players'.map (·.playerId))
    (h : (players.flatMap fun player => '|' :: playerSignature player) =
      players'.flatMap fun player => '|' :: playerSignature player) :
    players.map (fun player => (player.hp, player.online)) =
      players'.map fun player => (player.hp, player.online) := by
  -- With a bar at the end, every signature ends with one.
  replace h : (players.flatMap fun player => '|' :: playerSignature player) ++ ['|'] =
      (players'.flatMap fun player => '|' :: playerSignature player) ++ ['|'] := congrArg (· ++ ['|']) h
  have hbar : ∀ players : List RoomPlayerSnapshot, ∃ tail,
      (players.flatMap fun player => '|' :: playerSignature player) ++ ['|'] = '|' :: tail := by
    rintro (- | ⟨player, players⟩)
    · exact ⟨[], rfl⟩
    · exact ⟨_, rfl⟩
  induction players generalizing players' with
  | nil =>
    rw [List.map_nil] at hids
    rw [List.map_eq_nil_iff.mp hids.symm]
  | cons player players ih =>
    obtain ⟨player', players', rfl, hid, hids⟩ := List.map_eq_cons_iff.mp hids.symm
    rw [List.flatMap_cons, List.flatMap_cons, List.append_assoc, List.append_assoc, List.cons_append,
      List.cons_append, List.cons.injEq] at h
    obtain ⟨tail, htail⟩ := hbar players
    obtain ⟨tail', htail'⟩ := hbar players'
    have hrest := h.2
    rw [playerSignature, playerSignature, hid, List.append_assoc, List.append_assoc,
      List.append_cancel_left_eq, List.cons_append, List.cons_append, List.cons.injEq, htail, htail'] at hrest
    have hdigit : ∀ online : Bool, (if online then '1' else '0') ≠ '|' := by decide
    have hdigits : ∀ online online' : Bool,
        (if online then '1' else '0') = (if online' then '1' else '0') → online = online' := by decide
    have hends : ∀ player : RoomPlayerSnapshot,
        '|' ∉ (toString player.hp).toList ++ [if player.online then '1' else '0'] := by
      intro player hmem
      rcases List.mem_append.mp hmem with hhp | honline
      · exact bar_notMem_toString player.hp hhp
      · exact hdigit player.online (List.mem_singleton.mp honline).symm
    obtain ⟨hsame, hmore⟩ := append_sep_inj (hends player) (hends player') hrest.2
    obtain ⟨hhp, honline⟩ := List.append_inj' hsame rfl
    have honline' : player.online = player'.online := hdigits _ _ (List.cons.inj honline).1
    have hhp' : player.hp = player'.hp := Numeral.numeral_injective hhp
    rw [List.map_cons, List.map_cons, hhp', honline', ih hids.symm (by rw [htail, htail', hmore])]

/-- **What a signature tells** of a room whose players are known. -/
theorem of_stateSignature {a b : RoomSnapshot} (hids : a.players.map (·.playerId) = b.players.map (·.playerId))
    (h : stateSignature a = stateSignature b) : a.frame = b.frame ∧ a.state = b.state ∧
      a.players.map (fun player => (player.hp, player.online)) =
        b.players.map fun player => (player.hp, player.online) := by
  have hstate := state_of_stateSignature h
  have htext := congrArg String.toList h
  rw [toList_stateSignature_eq, toList_stateSignature_eq, hstate] at htext
  obtain ⟨hframe, hrest⟩ := append_sep_inj (bar_notMem_toString _) (bar_notMem_toString _) htext
  exact ⟨Numeral.numeral_injective hframe, hstate, playerSignatures_inj hids (List.append_cancel_left hrest)⟩

/-! ## The payload

Every field of the payload can be read off it. -/

theorem decimal_injective : Function.Injective decimal := utf8_injective.comp Numeral.numeral_injective

theorem comma_notMem_decimal (n : Int) : ','.toUInt8 ∉ decimal n := by
  intro hmem
  rcases Numeral.of_mem_numeral (mem_utf8_ascii (c := ',') (by decide) hmem) with h | h <;>
    exact absurd h (by decide)

/-- What is written before a key is told by its first byte. -/
theorem append_key_inj {sep : UInt8} {xs ys ss ts : List UInt8} (key : String)
    (hkey : (bytesOf key).head? = some sep) (hxs : sep ∉ xs) (hys : sep ∉ ys)
    (h : xs ++ (bytesOf key ++ ss) = ys ++ (bytesOf key ++ ts)) : xs = ys ∧ ss = ts := by
  obtain ⟨tail, htail⟩ := List.head?_eq_some_iff.mp hkey
  rw [htail] at h
  obtain ⟨hsame, hrest⟩ := append_sep_inj hxs hys h
  exact ⟨hsame, List.append_cancel_left hrest⟩

/-- **What a player's JSON tells**, whatever follows. -/
theorem playerJson_inj {player player' : RoomPlayerSnapshot} (hid : player.playerId = player'.playerId)
    {ss ts : List UInt8} (h : playerJson player ++ ss = playerJson player' ++ ts) : player = player' ∧ ss = ts := by
  have htext : ∀ b : Bool, ','.toUInt8 ∉ bytesOf (boolText b) ∧ '}'.toUInt8 ∉ bytesOf (boolText b) := by decide
  have hbool : ∀ b b' : Bool, bytesOf (boolText b) = bytesOf (boolText b') → b = b' := by decide
  unfold playerJson at h
  rw [hid] at h
  simp only [List.append_assoc, List.append_cancel_left_eq] at h
  obtain ⟨hhp, hrest⟩ := append_key_inj ",\"connected\":" rfl (comma_notMem_decimal _) (comma_notMem_decimal _) h
  obtain ⟨hconnected, hrest⟩ := append_key_inj ",\"online\":" rfl (htext _).1 (htext _).1 hrest
  obtain ⟨honline, hend⟩ := append_key_inj "\x7d" rfl (htext _).2 (htext _).2 hrest
  refine ⟨?_, hend⟩
  cases player
  cases player'
  rw [RoomPlayerSnapshot.mk.injEq]
  exact ⟨hid, decimal_injective hhp, hbool _ _ hconnected, hbool _ _ honline⟩

theorem playersJson_inj {players players' : List RoomPlayerSnapshot}
    (hids : players.map (·.playerId) = players'.map (·.playerId)) {ss ts : List UInt8}
    (h : playersJson players ++ ss = playersJson players' ++ ts) : players = players' := by
  unfold playersJson at h
  rw [List.append_assoc, List.append_assoc, List.append_assoc, List.append_assoc,
    List.append_cancel_left_eq] at h
  induction players generalizing players' with
  | nil => exact (List.map_eq_nil_iff.mp hids.symm).symm
  | cons player players ih =>
    obtain ⟨player', players', rfl, hid, hids⟩ := List.map_eq_cons_iff.mp hids.symm
    rcases players with - | ⟨next, players⟩
    · obtain rfl := List.map_eq_nil_iff.mp hids
      rw [List.map_singleton, List.map_singleton, List.intercalate_singleton, List.intercalate_singleton] at h
      rw [(playerJson_inj hid.symm h).1]
    · obtain ⟨next', players', rfl, hid', hids⟩ := List.map_eq_cons_iff.mp hids
      simp only [List.map_cons, List.intercalate_cons_cons, List.append_assoc] at h
      obtain ⟨hplayer, hrest⟩ := playerJson_inj hid.symm h
      have htail : (next :: players).map (·.playerId) = (next' :: players').map (·.playerId) := by
        rw [List.map_cons, List.map_cons, hid', hids]
      rw [hplayer, ih htail (List.append_cancel_left hrest)]

/-- **What a payload tells** of a room whose ids are known. -/
theorem of_roomPayload {a b : RoomSnapshot} (hroom : a.roomId = b.roomId) (hmatch : a.matchId = b.matchId)
    (hids : a.players.map (·.playerId) = b.players.map (·.playerId)) (h : roomPayload a = roomPayload b) :
    a.frame = b.frame ∧ a.state = b.state ∧ a.players = b.players := by
  have hname : ∀ state : RoomState, '"'.toUInt8 ∉ bytesOf (roomStateName state) := by
    intro state
    cases state <;> decide
  have hnames : ∀ state state' : RoomState,
      bytesOf (roomStateName state) = bytesOf (roomStateName state') → state = state' := by
    intro state state' heq
    cases state <;> cases state' <;> first | rfl | exact absurd heq (by decide)
  unfold roomPayload at h
  rw [hroom, hmatch] at h
  simp only [List.append_assoc, List.append_cancel_left_eq] at h
  obtain ⟨hstate, hrest⟩ := append_key_inj "\",\"frame\":" rfl (hname _) (hname _) h
  obtain ⟨hframe, hrest⟩ := append_key_inj ",\"players\":" rfl (comma_notMem_decimal _)
    (comma_notMem_decimal _) hrest
  exact ⟨decimal_injective hframe, hnames _ _ hstate, playersJson_inj hids hrest⟩

/-! ## The states of one room

Over a run of a room, the fields that the signature leaves out follow from the phase. -/

open Room (fillSnapshot toProtoState RoomPhase BattleRoom)

/-- What the gateway is shown of a room. -/
def shown (r : BattleRoom) : RoomSnapshot := toSnapshot (fillSnapshot r.snapshot)

theorem toState_injective : Function.Injective fun phase : RoomPhase => toState (toProtoState phase) := by
  intro phase phase' h
  cases phase <;> cases phase' <;> first | rfl | cases h

theorem players_shown (r : BattleRoom) : (shown r).players = r.seats.map fun s =>
    ⟨s.player.playerId, s.player.hp, s.player.connected, s.player.online⟩ := by
  change ((r.seats.map (·.player)).map _).map _ = _
  rw [List.map_map, List.map_map]
  rfl

theorem playerIds_shown (r : BattleRoom) :
    (shown r).players.map (·.playerId) = r.seats.map (·.player.playerId) := by
  rw [players_shown, List.map_map]
  rfl

variable {p q : String} {r r' : BattleRoom}

/-- Two rooms of the same players that agree in hit points, connections and in who has joined. -/
theorem players_shown_eq (hp : r.seats.map (·.player.playerId) = [p, q])
    (hp' : r'.seats.map (·.player.playerId) = [p, q])
    (hseen : (shown r).players.map (fun player => (player.hp, player.online)) =
      (shown r').players.map fun player => (player.hp, player.online))
    (hconnected : r.seats.map (·.player.connected) = r'.seats.map (·.player.connected)) :
    (shown r).players = (shown r').players := by
  obtain ⟨a, b, hseats, ha, hb⟩ := BattleRoom.pair_of_playerIds hp
  obtain ⟨a', b', hseats', ha', hb'⟩ := BattleRoom.pair_of_playerIds hp'
  rw [players_shown, players_shown, hseats, hseats'] at hseen ⊢
  rw [hseats, hseats'] at hconnected
  simp only [List.map_cons, List.map_nil, List.cons.injEq, and_true, Prod.mk.injEq] at hseen hconnected
  obtain ⟨⟨hhp, honline⟩, hhp', honline'⟩ := hseen
  simp only [List.map_cons, List.map_nil, ha, hb, ha', hb', hhp, honline, hhp', honline', hconnected.1, hconnected.2]

/-- **Two states of one room**, if all that its phase decides is the same in both. -/
theorem signature_iff_payload (h : BattleRoom.Lawful p q r) (h' : BattleRoom.Lawful p q r')
    (hroom : r.roomId = r'.roomId) (hmatch : r.matchId = r'.matchId)
    (hunseen : r.phase = r'.phase → r.unseen = r'.unseen) :
    stateSignature (shown r) = stateSignature (shown r') ↔ roomPayload (shown r) = roomPayload (shown r') := by
  have hids : (shown r).players.map (·.playerId) = (shown r').players.map (·.playerId) := by
    rw [playerIds_shown, playerIds_shown, h.playerIds, h'.playerIds]
  constructor
  · intro hsignature
    obtain ⟨hframe, hstate, hseen⟩ := of_stateSignature hids hsignature
    have hsame := hunseen (toState_injective hstate)
    have hplayers := players_shown_eq h.playerIds h'.playerIds hseen (congrArg Prod.fst hsame)
    have hreason : r.finishReason = r'.finishReason := congrArg (·.2.1) hsame
    have hwinner : r.winnerId = r'.winnerId := congrArg (·.2.2.1) hsame
    have hstarted : r.startedAtMs = r'.startedAtMs := congrArg (·.2.2.2.1) hsame
    have hfinished : r.finishedAtMs = r'.finishedAtMs := congrArg (·.2.2.2.2) hsame
    refine congrArg roomPayload ?_
    unfold shown toSnapshot at hstate hframe hplayers ⊢
    rw [RoomSnapshot.mk.injEq]
    exact ⟨hroom, hmatch, hstate, hframe, hplayers,
      congrArg (fun reason => toFinishReasonString (Room.toProtoFinishReason reason)) hreason, hwinner, hstarted,
      hfinished⟩
  · intro hpayload
    obtain ⟨hframe, hstate, hplayers⟩ := of_roomPayload hroom hmatch hids hpayload
    rw [stateSignature, stateSignature, hframe, hstate, hplayers]

/-- **The signature is faithful** — at any two moments of a run of a room of two players that is not aborted
twice, the signatures are equal exactly if the payloads are. -/
theorem signature_faithful (roomId matchId : String) (hpq : p ≠ q) (createdAtMs : Int)
    {ops : List BattleRoom.Operation}
    (hops : Run.Guarded BattleRoom.AbortsOnce BattleRoom.operate (.new roomId matchId [p, q] createdAtMs) ops)
    {pre pre' : List BattleRoom.Operation} (hpre : pre <+: ops) (hpre' : pre' <+: ops) :
    stateSignature (shown ((BattleRoom.new roomId matchId [p, q] createdAtMs).operations pre)) =
        stateSignature (shown ((BattleRoom.new roomId matchId [p, q] createdAtMs).operations pre')) ↔
      roomPayload (shown ((BattleRoom.new roomId matchId [p, q] createdAtMs).operations pre)) =
        roomPayload (shown ((BattleRoom.new roomId matchId [p, q] createdAtMs).operations pre')) := by
  have hlawful := fun ops => ((BattleRoom.Attended.new (p := p) (q := q) roomId matchId
    createdAtMs).operations ops).lawful
  have hids := fun ops => BattleRoom.operations_ids (.new roomId matchId [p, q] createdAtMs) ops
  refine signature_iff_payload (hlawful pre) (hlawful pre') ((hids pre).1.trans (hids pre').1.symm)
    ((hids pre).2.trans (hids pre').2.symm) fun hphase => ?_
  rcases List.prefix_or_prefix_of_prefix hpre hpre' with hearlier | hlater
  · exact BattleRoom.unseen_operations roomId matchId hpq createdAtMs hops hearlier hpre' hphase
  · exact (BattleRoom.unseen_operations roomId matchId hpq createdAtMs hops hlater hpre hphase.symm).symm

/-- A player leaves, and comes back: before and after it the room is shown as the same. -/
theorem signature_faithful_back :
    let ops : List BattleRoom.Operation := [.op (.join "a" 0), .op (.join "b" 5),
      .op (.setPresence "a" false 10), .op (.setPresence "a" true 20), .abort 30]
    let r := BattleRoom.new "room" "match" ["a", "b"] 0
    stateSignature (shown (r.operations (ops.take 2))) = stateSignature (shown (r.operations (ops.take 4))) ↔
      roomPayload (shown (r.operations (ops.take 2))) = roomPayload (shown (r.operations (ops.take 4))) :=
  signature_faithful "room" "match" (by decide) 0 (by decide +kernel) (List.take_prefix 2 _)
    (List.take_prefix 4 _)

/-- A room that is aborted again, at another time. -/
theorem not_signature_faithful :
    let r := BattleRoom.new "room" "match" ["a", "b"] 0
    let once : List BattleRoom.Operation := [.abort 1]
    let twice : List BattleRoom.Operation := [.abort 1, .abort 2]
    stateSignature (shown (r.operations once)) = stateSignature (shown (r.operations twice)) ∧
      roomPayload (shown (r.operations once)) ≠ roomPayload (shown (r.operations twice)) := by
  decide +kernel

end RealtimeGame.Gateway
