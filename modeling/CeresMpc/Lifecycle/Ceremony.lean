import CeresMpc.Dispatch.Rounds
import CeresMpc.Lifecycle.Serial

/-!
# FROST keygen and recovery in order

A server payload is consumed one round after it has come. When calls are made one after
another, a completed ceremony is a first round, one second round, and the last round,
and the library's three parts were given the payloads of the first two.
-/

set_option autoImplicit false

namespace CeresMpc.Lifecycle

open Encoding Interleaving Program Api Dispatch

variable {lib : Libraries}

/-! ## What a completed ceremony has behind it -/

/-- The library checks that its parts are done in order: part 2 takes what part 1 made,
and part 3 what part 2 made. -/
structure PartsInOrder (frost : Frost) : Prop where
  keygenPart2 : ∀ state payload next inner, frost.keygenPart2 state payload = .ok (next, inner) →
    ∀ later made, frost.keygenPart2 next later ≠ .ok made
  keygenPart3 : ∀ identifier draw state inner, frost.keygenPart1 identifier draw = .ok (state, inner) →
    ∀ payload keys, frost.keygenPart3 state payload ≠ .ok keys
  recoveryPart2 : ∀ state payload next inner, frost.recoveryPart2 state payload = .ok (next, inner) →
    ∀ later made, frost.recoveryPart2 next later ≠ .ok made
  recoveryPart3 : ∀ keyPackage publicKeyPackage draw state inner,
    frost.recoveryPart1 keyPackage publicKeyPackage draw = .ok (state, inner) →
      ∀ payload keys, frost.recoveryPart3 state payload ≠ .ok keys

/-- Between the first round `opener` and the last round `thread` only the second round
`advancer` has put a session into the entry or taken one out. -/
structure Consecutive (world : EngineWorld lib) (protocol : ProtocolType) (sessionId : String)
    (opener advancer thread : Nat) : Prop where
  opened : opener < advancer
  advanced : advancer < thread
  put : ∀ other session, opener < other → other < thread →
    Performed world.trace other (.insert .ed25519 protocol sessionId session) () → other = advancer
  taken : ∀ other session, opener < other → other < thread →
    Performed world.trace other (.remove .ed25519 protocol sessionId) (some session) → other = advancer

/-- The keys of a keygen, from the payloads of its first two rounds. -/
def KeygenChain (lib : Libraries) (sessionId first second : String) (result : MpcRoundResult) : Prop :=
  ∃ env₁ env₂ draw state₁ inner₁ state₂ inner₂ keyPackage publicKeyPackage vkBytes address share,
    EngineEd25519.parseWire lib first = .ok env₁ ∧ EngineEd25519.parseWire lib second = .ok env₂ ∧
    lib.frost.keygenPart1 1 draw = .ok (state₁, inner₁) ∧
    lib.frost.keygenPart2 state₁ env₁.payload = .ok (state₂, inner₂) ∧
    lib.frost.keygenPart3 state₂ env₂.payload = .ok (keyPackage, publicKeyPackage) ∧
    EngineEd25519.verifyingKeyBytes lib publicKeyPackage = .ok vkBytes ∧ deriveSolanaAddress lib vkBytes = .ok address ∧
    lib.frost.buildShareEnvelope keyPackage publicKeyPackage = .ok share ∧
    result = EngineEd25519.makeCompleted lib 0 (KeygenCompletedPayload.toJson
      { mpcKeyId := sessionId, address, publicKey := lib.text.encodeHex vkBytes, curve := "ed25519"
        threshold := 2, keyRef := sessionId, backupState := "none", rotationVersion := 1
        localEncryptedShare := share })

/-- The keys of a recovery. Whatever part 3 returns, the key reported is that of the old
package in the library's state. -/
def RecoveryChain (lib : Libraries) (sessionId first second backupShare : String) (rotationVersion : Int32)
    (result : MpcRoundResult) : Prop :=
  ∃ env₁ env₂ oldKp oldPkp draw state₁ inner₁ state₂ inner₂ keyPackage publicKeyPackage vkBytes address share,
    EngineEd25519.parseWire lib first = .ok env₁ ∧ EngineEd25519.parseWire lib second = .ok env₂ ∧
    EngineEd25519.extractShareMaterial lib backupShare = .ok (oldKp, oldPkp) ∧
    lib.frost.recoveryPart1 oldKp oldPkp draw = .ok (state₁, inner₁) ∧
    lib.frost.recoveryPart2 state₁ env₁.payload = .ok (state₂, inner₂) ∧
    lib.frost.recoveryPart3 state₂ env₂.payload = .ok (keyPackage, publicKeyPackage) ∧
    EngineEd25519.verifyingKeyBytes lib publicKeyPackage = .ok vkBytes ∧
    EngineEd25519.verifyingKeyBytes lib (lib.frost.oldPubKeyPkg state₂) = .ok vkBytes ∧
    deriveSolanaAddress lib vkBytes = .ok address ∧
    lib.frost.buildShareEnvelope keyPackage publicKeyPackage = .ok share ∧
    result = EngineEd25519.makeCompleted lib 0 (RecoveryCompletedPayload.toJson
      { mpcKeyId := sessionId, address, publicKey := lib.text.encodeHex vkBytes
        rotationVersion := rotationVersion + 1, localEncryptedShare := share })

/-- The call was made to the FROST engine, or its lookup has sent it there. -/
def ServedByFrost (world : EngineWorld lib) (protocol : ProtocolType) (sessionId : String) (entry : EntryPoint)
    (thread : Nat) : Prop :=
  entry = .engineEd25519 ∨ Performed world.trace thread (.contains .ed25519 protocol sessionId) true

/-- A keygen that completes has gone through its three rounds in order. -/
def KeygensInOrder (world : EngineWorld lib) : Prop :=
  ∀ thread entry sessionId payload reply, world.Returned thread (.keygen entry sessionId 0 payload) (.ok reply) →
    ServedByFrost world .dkg sessionId entry thread → ∃ result opener advancer entry₁ entry₂ first second, reply = .round result ∧
      Consecutive world .dkg sessionId opener advancer thread ∧
      world.Called opener (.keygen entry₁ sessionId 1 first) ∧
      world.Called advancer (.keygen entry₂ sessionId 2 second) ∧ KeygenChain lib sessionId first second result

def RecoveriesInOrder (world : EngineWorld lib) : Prop :=
  ∀ thread entry sessionId payload backupShare rotationVersion reply,
    world.Returned thread (.recover entry sessionId 0 payload backupShare rotationVersion) (.ok reply) →
    ServedByFrost world .rotation sessionId entry thread → ∃ result opener advancer entry₁ entry₂ first second share version laterShare laterVersion, reply = .round result ∧
      Consecutive world .rotation sessionId opener advancer thread ∧
      world.Called opener (.recover entry₁ sessionId 1 first (some share) (some version)) ∧
      world.Called advancer (.recover entry₂ sessionId 2 second laterShare laterVersion) ∧
      RecoveryChain lib sessionId first second share version result

/-- In every sequence of calls a FROST ceremony completes by its three rounds in order. -/
def CeremoniesInOrder (lib : Libraries) : Prop :=
  ∀ world : EngineWorld lib, (machine lib).Reaches Sequential (.initial .empty) world →
    KeygensInOrder world ∧ RecoveriesInOrder world

/-- A second round has put a session back between two other calls. -/
def AdvancedBetween (world : EngineWorld lib) (sessionId : String) (opener thread advancer : Nat) (second : String) : Prop :=
  opener < advancer ∧ advancer < thread ∧ world.Called advancer (.keygen .engineEd25519 sessionId 2 second) ∧
    ∃ session, Performed world.trace advancer (.insert .ed25519 .dkg sessionId session) ()

/-- The order of the rounds counted from the last first round, even when that has failed. -/
def KeygensFromLastFirstRound (lib : Libraries) : Prop :=
  ∀ world : EngineWorld lib, (machine lib).Reaches Sequential (.initial .empty) world →
    ∀ thread sessionId payload reply,
      world.Returned thread (.keygen .engineEd25519 sessionId 0 payload) (.ok reply) →
      ∀ opener first, opener < thread → world.Called opener (.keygen .engineEd25519 sessionId 1 first) →
        (∀ other later, opener < other → other < thread →
          ¬world.Called other (.keygen .engineEd25519 sessionId 1 later)) →
        ∃ result advancer second, reply = .round result ∧ AdvancedBetween world sessionId opener thread advancer second ∧
          (∀ other text, AdvancedBetween world sessionId opener thread other text → other = advancer) ∧
          KeygenChain lib sessionId first second result

/-! ## Where a session comes from -/

/-- An operation that changes what an entry holds. -/
def Effective (protocol : ProtocolType) (sessionId : String) (entry : Entry (Action lib) (Action.Answer lib)) : Prop :=
  ∃ event, tableEvent .ed25519 protocol entry = some event ∧ event.key = sessionId

private theorem not_amended {protocol : ProtocolType} (entry : Entry (Action lib) (Action.Answer lib)) (key : String)
    (change : Session lib .ed25519 protocol → Session lib .ed25519 protocol) :
    tableEvent .ed25519 protocol entry ≠ some (.amend key change) := by
  intro amended
  unfold tableEvent at amended
  split at amended
  · split at amended <;> cases amended
  · split at amended <;> cases amended
  · split at amended <;> cases amended
  · split at amended
    · next same => cases same
    · cases amended
  · split at amended
    · next same => cases same
    · cases amended
  · cases amended

private theorem inserted_last {protocol : ProtocolType} {sessionId : String} {session : Session lib .ed25519 protocol}
    {trace : List (Nat × Entry (Action lib) (Action.Answer lib))}
    (held : Custody.contents (tableHistory .ed25519 protocol trace) sessionId = some session) :
    ∃ later thread older, trace = later ++ (thread, ⟨.insert .ed25519 protocol sessionId session, ()⟩) :: older ∧
      ∀ event ∈ later, ¬Effective protocol sessionId event.2 := by
  induction trace with
  | nil => cases held
  | cons newest earlier ih =>
      rw [tableHistory_cons] at held
      have before (same : Custody.contents (tableHistory .ed25519 protocol earlier) sessionId = some session)
          (idle : ¬Effective protocol sessionId newest.2) :
          ∃ later thread older,
            newest :: earlier = later ++ (thread, ⟨.insert .ed25519 protocol sessionId session, ()⟩) :: older ∧
              ∀ event ∈ later, ¬Effective protocol sessionId event.2 := by
        obtain ⟨later, thread, older, split, quiet⟩ := ih same
        refine ⟨newest :: later, thread, older, by rw [split]; rfl, ?_⟩
        intro event member
        rcases List.mem_cons.mp member with rfl | old
        · exact idle
        · exact quiet event old
      cases effect : tableEvent .ed25519 protocol newest.2 with
      | none =>
          rw [effect] at held
          refine before held ?_
          rintro ⟨event, happened, _⟩
          rw [effect] at happened
          cases happened
      | some event =>
          rw [effect] at held
          change Custody.contents (event :: tableHistory .ed25519 protocol earlier) sessionId = some session at held
          rw [Custody.contents_effect] at held
          by_cases here : sessionId = event.key
          · cases event with
            | put key value =>
                cases here
                simp only [Custody.Event.effect, Custody.Event.key, if_true, Option.some.injEq] at held
                subst held
                obtain ⟨thread, entry⟩ := newest
                cases insert_of_tableEvent effect
                exact ⟨[], thread, earlier, rfl, by simp⟩
            | take key found => simp [Custody.Event.effect, Custody.Event.key, here] at held
            | evict key => simp [Custody.Event.effect, Custody.Event.key, here] at held
            | amend key change => exact absurd effect (not_amended newest.2 key change)
          · rw [event.effect_of_ne here] at held
            refine before held ?_
            rintro ⟨other, happened, same⟩
            rw [effect] at happened
            cases happened
            exact here same.symm

section Sources

variable {protocol : ProtocolType} {sessionId : String}

/-- How a session came into an entry. -/
inductive InsertedBy (call : Call) (past : Past lib) (session : Session lib .ed25519 protocol) : Prop where
  | opens {ceremony opens completes reads inner} :
      Call.Performs lib call protocol ceremony opens completes sessionId 1 → opens reads session inner →
      InsertedBy call past session
  | advances {ceremony opens completes old env next inner before} :
      Call.Performs lib call protocol ceremony opens completes sessionId 2 →
      past = ⟨.remove .ed25519 protocol sessionId, some old⟩ :: before →
      EngineEd25519.Advances ceremony call.payload old env next inner →
      session = ceremony.advanced old next env.payload → InsertedBy call past session
  | signs : protocol = .dsg → InsertedBy call past session

theorem inserted_by {call : Call} {past : Past lib} {session : Session lib .ed25519 protocol}
    (step : Call.Step lib call past (.insert .ed25519 protocol sessionId session)) :
    @InsertedBy lib protocol sessionId call past session := by
  obtain ⟨base, routed, step⟩ := step.on_ed25519 rfl
  cases step with
  | ceremony performs step =>
      cases step with
      | read first reads reading => rcases reading with same | same <;> cases same
      | start first opened same => exact .opens (first ▸ performs) opened
      | putBack second looked advances => exact .advances (second ▸ performs) rfl advances rfl
  | sign named step =>
      cases step with
      | read first reads reading => rcases reading with ⟨_, same⟩ | same | same <;> cases same
      | start => exact .signs rfl

private theorem performs_ceremony {call other : Call} {ceremony ceremony' : EngineEd25519.Ceremony lib protocol}
    {opens opens' : Past lib → Session lib .ed25519 protocol → String → Prop}
    {completes completes' : Session lib .ed25519 protocol → MpcRoundResult → Prop} {otherId : String} {round otherRound : Int32}
    (performs : Call.Performs lib call protocol ceremony opens completes sessionId round)
    (again : Call.Performs lib other protocol ceremony' opens' completes' otherId otherRound) : ceremony' = ceremony := by
  cases performs with
  | keygen named =>
      cases again with
      | keygen => rfl
  | recover named =>
      cases again with
      | recover => rfl

private theorem performs_completes {call : Call} {ceremony ceremony' : EngineEd25519.Ceremony lib protocol}
    {opens opens' : Past lib → Session lib .ed25519 protocol → String → Prop}
    {completes completes' : Session lib .ed25519 protocol → MpcRoundResult → Prop} {round otherRound : Int32}
    (performs : Call.Performs lib call protocol ceremony opens completes sessionId round)
    (again : Call.Performs lib call protocol ceremony' opens' completes' sessionId otherRound) : completes' = completes := by
  cases performs with
  | keygen named =>
      cases again with
      | keygen => rfl
  | recover named =>
      cases again with
      | recover => rfl

private theorem performs_not_sign {call : Call} {ceremony : EngineEd25519.Ceremony lib protocol}
    {opens : Past lib → Session lib .ed25519 protocol → String → Prop}
    {completes : Session lib .ed25519 protocol → MpcRoundResult → Prop} {round : Int32}
    (performs : Call.Performs lib call protocol ceremony opens completes sessionId round) : protocol ≠ .dsg := by
  cases performs <;> decide

variable {world : EngineWorld lib}

private theorem held_at_removal {Allowed : EngineWorld lib → Move Call Drift → Prop}
    (reached : (machine lib).Reaches Allowed (.initial .empty) world)
    {later earlier : List (Nat × Entry (Action lib) (Action.Answer lib))} {thread : Nat}
    {found : Option (Session lib .ed25519 protocol)}
    (split : world.trace = later ++ (thread, ⟨.remove .ed25519 protocol sessionId, found⟩) :: earlier) :
    Custody.contents (tableHistory .ed25519 protocol earlier) sessionId = found := by
  obtain ⟨before, call, next, after, start, _, rfl, _, moved, _⟩ := reached.event_moved split
  rw [(reached_recorded .ed25519 protocol start).contents]
  exact Engine.remove_answer (show before.shared.interpret thread _ = _ from moved)

private theorem source_of_removal {Allowed : EngineWorld lib → Move Call Drift → Prop}
    (reached : (machine lib).Reaches Allowed (.initial .empty) world)
    {later earlier : List (Nat × Entry (Action lib) (Action.Answer lib))} {thread : Nat}
    {session : Session lib .ed25519 protocol}
    (split : world.trace = later ++ (thread, ⟨.remove .ed25519 protocol sessionId, some session⟩) :: earlier) :
    ∃ middle source older call,
      earlier = middle ++ (source, ⟨.insert .ed25519 protocol sessionId session, ()⟩) :: older ∧
        (∀ event ∈ middle, ¬Effective protocol sessionId event.2) ∧ world.Called source call ∧
        @InsertedBy lib protocol sessionId call (past source older) session := by
  obtain ⟨middle, source, older, rfl, quiet⟩ := inserted_last (held_at_removal reached split)
  have whole : world.trace = (later ++ (thread, ⟨.remove .ed25519 protocol sessionId, some session⟩) :: middle) ++
      (source, ⟨.insert .ed25519 protocol sessionId session, ()⟩) :: older := by
    rw [split, List.append_assoc, List.cons_append]
  obtain ⟨before, call, next, after, start, _, rfl, found, _, onward⟩ := reached.event_moved whole
  obtain ⟨program, called⟩ := onward.call_stable found
  exact ⟨middle, source, before.trace, call, rfl, quiet, ⟨program, called⟩,
    inserted_by (start.follows Call.body_steps source call _ found).1⟩

private theorem effective_insert (session : Session lib .ed25519 protocol) :
    Effective protocol sessionId (⟨.insert .ed25519 protocol sessionId session, ()⟩ : Entry (Action lib) (Action.Answer lib)) :=
  ⟨_, tableEvent_insert _ _, rfl⟩

private theorem effective_remove (found : Option (Session lib .ed25519 protocol)) :
    Effective protocol sessionId (⟨.remove .ed25519 protocol sessionId, found⟩ : Entry (Action lib) (Action.Answer lib)) :=
  ⟨_, tableEvent_remove _ _, rfl⟩

end Sources

/-! ## Calls one after another -/

/-- The library's order of parts, for one ceremony. -/
private structure Straight {protocol : ProtocolType} (ceremony : EngineEd25519.Ceremony lib protocol) : Prop where
  part2 : ∀ state payload next inner, ceremony.part2 state payload = .ok (next, inner) →
    ∀ later made, ceremony.part2 next later ≠ .ok made
  part3 : ∀ call opens completes sessionId round reads session inner,
    Call.Performs lib call protocol ceremony opens completes sessionId round → opens reads session inner →
      ∀ payload keys, ceremony.part3 (ceremony.state session) payload ≠ .ok keys

private theorem keygen_straight (parts : PartsInOrder lib.frost) : Straight (EngineEd25519.keygenCeremony lib) := by
  constructor
  · exact parts.keygenPart2
  · intro call opens completes sessionId round reads session inner performs opened
    cases performs with
    | keygen named =>
        obtain ⟨_, draw, part1, _⟩ := opened
        exact parts.keygenPart3 1 draw _ inner part1

private theorem recovery_straight (parts : PartsInOrder lib.frost) : Straight (EngineEd25519.recoveryCeremony lib) := by
  constructor
  · exact parts.recoveryPart2
  · intro call opens completes sessionId round reads session inner performs opened
    cases performs with
    | recover named =>
        obtain ⟨_, _, share, oldKp, oldPkp, draw, _, _, part1, _⟩ := opened
        exact parts.recoveryPart3 oldKp oldPkp draw _ inner part1

section Chain

variable {world : EngineWorld lib} {protocol : ProtocolType} {sessionId : String}

private theorem sorted (reached : (machine lib).Reaches Sequential (.initial .empty) world) :
    world.trace.Pairwise fun newer older => older.1 ≤ newer.1 :=
  reached.trace_sorted fun _ _ idle => idle

/-- Nothing happens between a call's removal and its insertion. -/
private theorem gap_empty (reached : (machine lib).Reaches Sequential (.initial .empty) world)
    {later middle earlier : List (Nat × Entry (Action lib) (Action.Answer lib))} {thread : Nat}
    {first last : Entry (Action lib) (Action.Answer lib)}
    (split : world.trace = later ++ (thread, last) :: (middle ++ (thread, first) :: earlier))
    (idle : past thread middle = []) : middle = [] := by
  have ordered := sorted reached
  rw [split] at ordered
  have below := (Machine.sorted_around ordered).2
  have inner := (List.pairwise_append.mp ordered).2.1
  have above := (Machine.sorted_around (List.pairwise_cons.mp inner).2).1
  refine List.eq_nil_iff_forall_not_mem.mpr fun event member => ?_
  have atMost := below event (List.mem_append_left _ member)
  have atLeast := above event member
  have own : event.1 = thread := Nat.le_antisymm atMost atLeast
  have listed : event.2 ∈ past thread middle := mem_past.mpr (by rw [← own]; exact member)
  rw [idle] at listed
  cases listed

/-- The five operations that a completed ceremony consists of. -/
private structure Steps (world : EngineWorld lib) (protocol : ProtocolType) (sessionId : String)
    (opener advancer thread : Nat) : Prop where
  steps : ∃ later recent middle older opened advanced taken, world.trace =
    later ++ (thread, ⟨.remove .ed25519 protocol sessionId, some taken⟩) ::
      (recent ++ (advancer, ⟨.insert .ed25519 protocol sessionId advanced, ()⟩) ::
        (advancer, ⟨.remove .ed25519 protocol sessionId, some opened⟩) ::
          (middle ++ (opener, ⟨.insert .ed25519 protocol sessionId opened, ()⟩) :: older)) ∧
    (∀ event ∈ recent, ¬Effective protocol sessionId event.2) ∧
    ∀ event ∈ middle, ¬Effective protocol sessionId event.2

private theorem Steps.between {opener advancer thread : Nat} (steps : Steps world protocol sessionId opener advancer thread)
    (reached : (machine lib).Reaches Sequential (.initial .empty) world) {other : Nat}
    {entry : Entry (Action lib) (Action.Answer lib)} (after : opener < other) (before : other < thread)
    (performed : (other, entry) ∈ world.trace) (effective : Effective protocol sessionId entry) : other = advancer := by
  obtain ⟨later, recent, middle, older, opened, advanced, taken, split, quietRecent, quietMiddle⟩ := steps
  have ordered := sorted reached
  have whole : world.trace = (later ++ (thread, ⟨.remove .ed25519 protocol sessionId, some taken⟩) ::
      (recent ++ (advancer, ⟨.insert .ed25519 protocol sessionId advanced, ()⟩) ::
        (advancer, ⟨.remove .ed25519 protocol sessionId, some opened⟩) :: middle)) ++
        (opener, ⟨.insert .ed25519 protocol sessionId opened, ()⟩) :: older := by
    rw [split]
    simp
  have oldest : ∀ event ∈ older, event.1 ≤ opener := (Machine.sorted_around (whole ▸ ordered)).2
  have newest : ∀ event ∈ later, thread ≤ event.1 := (Machine.sorted_around (split ▸ ordered)).1
  rw [split] at performed
  simp only [List.mem_append, List.mem_cons, Prod.mk.injEq] at performed
  rcases performed with new | ⟨rfl, _⟩ | recently | ⟨rfl, _⟩ | ⟨rfl, _⟩ | between | ⟨rfl, _⟩ | old
  · have := newest _ new
    simp only at this
    omega
  · omega
  · exact absurd effective (quietRecent _ recently)
  · rfl
  · rfl
  · exact absurd effective (quietMiddle _ between)
  · omega
  · have := oldest _ old
    simp only at this
    omega

/-- The session a last round takes came from one first round by one second round. -/
private theorem chain (reached : (machine lib).Reaches Sequential (.initial .empty) world) {thread : Nat} {call : Call}
    {ceremony : EngineEd25519.Ceremony lib protocol} {opens : Past lib → Session lib .ed25519 protocol → String → Prop}
    {completes : Session lib .ed25519 protocol → MpcRoundResult → Prop} (straight : Straight ceremony)
    (performs : Call.Performs lib call protocol ceremony opens completes sessionId 0) (called : world.Called thread call)
    {later earlier : List (Nat × Entry (Action lib) (Action.Answer lib))} {session : Session lib .ed25519 protocol}
    (split : world.trace = later ++ (thread, ⟨.remove .ed25519 protocol sessionId, some session⟩) :: earlier)
    {keys : lib.frost.KeyPackage × lib.frost.PublicKeyPackage}
    (part3 : ceremony.part3 (ceremony.state session) (ceremony.pending session) = .ok keys) :
    ∃ opener advancer first second, Consecutive world protocol sessionId opener advancer thread ∧
      world.Called opener first ∧ world.Called advancer second ∧ ∃ opened opens₁ completes₁ reads inner₁,
        Call.Performs lib first protocol ceremony opens₁ completes₁ sessionId 1 ∧ opens₁ reads opened inner₁ ∧
        ∃ opens₂ completes₂ env next inner₂, Call.Performs lib second protocol ceremony opens₂ completes₂ sessionId 2 ∧
          EngineEd25519.Advances ceremony second.payload opened env next inner₂ ∧
          session = ceremony.advanced opened next env.payload := by
  obtain ⟨recent, advancer, before, second, rfl, quietRecent, calledSecond, source⟩ := source_of_removal reached split
  cases source with
  | signs signing => exact absurd signing (performs_not_sign performs)
  | opens fresh opened =>
      obtain rfl := performs_ceremony performs fresh
      exact absurd part3 (straight.part3 _ _ _ _ _ _ _ _ fresh opened _ keys)
  | @advances _ opens₂ completes₂ opened env next inner₂ operations performs₂ own advances made =>
      obtain rfl := performs_ceremony performs performs₂
      obtain ⟨middle, older, rfl, idle, _⟩ := @past_split _ _ advancer before [] operations _ own
      have atInsertion : world.trace = (later ++ (thread, ⟨.remove .ed25519 protocol sessionId, some session⟩) :: recent) ++
          (advancer, ⟨.insert .ed25519 protocol sessionId session, ()⟩) ::
            (middle ++ (advancer, ⟨.remove .ed25519 protocol sessionId, some opened⟩) :: older) := by
        rw [split]
        simp
      obtain rfl := gap_empty reached atInsertion idle
      have atRemoval : world.trace = (later ++ (thread, ⟨.remove .ed25519 protocol sessionId, some session⟩) ::
          (recent ++ [(advancer, ⟨.insert .ed25519 protocol sessionId session, ()⟩)])) ++
            (advancer, ⟨.remove .ed25519 protocol sessionId, some opened⟩) :: older := by
        rw [split]
        simp
      obtain ⟨middle, opener, oldest, first, rfl, quietMiddle, calledFirst, source⟩ := source_of_removal reached atRemoval
      cases source with
      | signs signing => exact absurd signing (performs_not_sign performs)
      | advances performs₁ _ advancesBefore madeBefore =>
          obtain rfl := performs_ceremony performs performs₁
          have part2 := advances.part2
          rw [madeBefore, EngineEd25519.Ceremony.state_advanced] at part2
          exact absurd part2 (straight.part2 _ _ _ _ advancesBefore.part2 _ _)
      | @opens _ opens₁ completes₁ reads inner₁ performs₁ openedBy =>
          obtain rfl := performs_ceremony performs performs₁
          have steps : Steps world protocol sessionId opener advancer thread :=
            ⟨later, recent, middle, oldest, opened, session, session, by rw [split]; simp, quietRecent, quietMiddle⟩
          have rounds : opener ≠ advancer ∧ advancer ≠ thread := by
            constructor
            · rintro rfl
              obtain rfl := World.called_unique calledFirst calledSecond
              have first := performs₁.names.2.symm.trans performs₂.names.2
              revert first
              decide
            · rintro rfl
              obtain rfl := World.called_unique called calledSecond
              have last := performs.names.2.symm.trans performs₂.names.2
              revert last
              decide
          have below := (Machine.sorted_around (split ▸ sorted reached)).2
          have advanced : advancer ≤ thread := below (advancer, _) (List.mem_append_right _ List.mem_cons_self)
          have openedBelow := (Machine.sorted_around (atRemoval ▸ sorted reached)).2
          have openedFirst : opener ≤ advancer := openedBelow (opener, _) (List.mem_append_right _ List.mem_cons_self)
          have consecutive : Consecutive world protocol sessionId opener advancer thread := by
            constructor
            · exact Nat.lt_of_le_of_ne openedFirst rounds.1
            · exact Nat.lt_of_le_of_ne advanced rounds.2
            · intro other stored after before performed
              exact steps.between reached after before performed (effective_insert stored)
            · intro other stored after before performed
              exact steps.between reached after before performed (effective_remove (some stored))
          exact ⟨opener, advancer, first, second, consecutive, calledFirst, calledSecond, opened, opens₁, completes₁, reads,
            inner₁, performs₁, openedBy, opens₂, completes₂, env, next, inner₂, performs₂, advances, made⟩

private theorem last_round {Allowed : EngineWorld lib → Move Call Drift → Prop}
    (reached : (machine lib).Reaches Allowed (.initial .empty) world) {thread : Nat} {call : Call} {reply : Reply}
    {ceremony : EngineEd25519.Ceremony lib protocol} {opens : Past lib → Session lib .ed25519 protocol → String → Prop}
    {completes : Session lib .ed25519 protocol → MpcRoundResult → Prop}
    (performs : Call.Performs lib call protocol ceremony opens completes sessionId 0)
    (served : ServedByFrost world protocol sessionId call.entry thread) (returned : world.Returned thread call (.ok reply)) :
    ∃ result session later earlier, reply = .round result ∧ completes session result ∧
      world.trace = later ++ (thread, ⟨.remove .ed25519 protocol sessionId, some session⟩) :: earlier := by
  have names := performs.names
  have ended : Call.End lib call (past thread world.trace) (.ok reply) :=
    reached.follows Call.body_steps thread call _ returned
  generalize operations : past thread world.trace = own at ended
  cases ended with
  | exports none same =>
      rw [names.1] at none
      cases none
  | @dkls _ _ _ outcome routed ended same =>
      exfalso
      have later : call.round ≠ some 1 := by
        rw [names.2]
        decide
      rcases served with direct | looked
      · exact absurd (routed.of_direct direct) (by decide)
      cases outcome with
      | error failure => cases same
      | ok result =>
          have unified : call.entry = .mpcEngine := by
            cases entry : call.entry with
            | mpcEngine => rfl
            | engineEd25519 => exact absurd (routed.of_direct entry) (by decide)
          obtain ⟨entry, member, finds⟩ := dkls_finds ended later names.1
          rw [← operations] at member
          have engine := engine_of_lookup reached ⟨_, returned⟩ unified later names.1 looked (mem_past.mp member)
          cases finds with
          | remove =>
              rcases engine with impossible | within
              · cases impossible
              · cases within.1
          | checkout =>
              rcases engine with impossible | within
              · cases impossible
              · cases within.1
  | frost routed ended same =>
      cases ended with
      | sign named ended =>
          have signing := names.1
          rw [named] at signing
          cases signing
          exact absurd rfl (performs_not_sign performs)
      | ceremony performs' ended =>
          obtain ⟨scope, round⟩ := performs'.names
          rw [names.1] at scope
          rw [names.2] at round
          cases scope
          cases round
          cases ended with
          | failed => cases same
          | started first => exact absurd first (by decide)
          | advanced second => exact absurd second (by decide)
          | @completed session result last completed =>
              cases same
              obtain ⟨later, earlier, split, _, _⟩ := @past_split _ _ thread world.trace [] _ _ operations
              exact ⟨result, session, later, earlier, rfl, performs_completes performs performs' ▸ completed, split⟩

end Chain

theorem ceremonies_in_order (lib : Libraries) (parts : PartsInOrder lib.frost) : CeremoniesInOrder lib := by
  intro world reached
  constructor
  · intro thread entry sessionId payload reply returned served
    obtain ⟨result, session, later, earlier, rfl, completes, split⟩ := last_round reached (.keygen rfl) served returned
    obtain ⟨keyPackage, publicKeyPackage, vkBytes, address, share, part3, serialized, derived, built, made⟩ := completes
    obtain ⟨opener, advancer, first, second, consecutive, calledFirst, calledSecond, opened, _, _, reads, inner₁, performs₁,
      openedBy, _, _, env₂, state₂, inner₂, performs₂, advances, rfl⟩ :=
      chain reached (keygen_straight parts) (.keygen rfl) ⟨_, returned⟩ split part3
    cases performs₁ with
    | keygen named₁ =>
        cases performs₂ with
        | keygen named₂ =>
            subst named₁
            subst named₂
            obtain ⟨⟨env₁, parsed, pending⟩, draw, part1, _⟩ := openedBy
            have part2 := advances.part2
            change lib.frost.keygenPart2 opened.libState opened.pendingServerInner = _ at part2
            rw [pending] at part2
            exact ⟨result, opener, advancer, _, _, _, _, rfl, consecutive, calledFirst, calledSecond, env₁, env₂, draw, _, inner₁,
              state₂, inner₂, keyPackage, publicKeyPackage, vkBytes, address, share, parsed, advances.parsed, part1, part2,
              part3, serialized, derived, built, made⟩
  · intro thread entry sessionId payload backupShare rotationVersion reply returned served
    obtain ⟨result, session, later, earlier, rfl, completes, split⟩ := last_round reached (.recover rfl) served returned
    obtain ⟨keyPackage, publicKeyPackage, vkBytes, address, share, part3, serialized, old, derived, built, made⟩ := completes
    obtain ⟨opener, advancer, first, second, consecutive, calledFirst, calledSecond, opened, _, _, reads, inner₁, performs₁,
      openedBy, _, _, env₂, state₂, inner₂, performs₂, advances, rfl⟩ :=
      chain reached (recovery_straight parts) (.recover rfl) ⟨_, returned⟩ split part3
    cases performs₁ with
    | recover named₁ =>
        cases performs₂ with
        | recover named₂ =>
            subst named₁
            subst named₂
            obtain ⟨⟨env₁, parsed, pending⟩, rfl, oldShare, oldKp, oldPkp, draw, rfl, material, part1, _⟩ := openedBy
            have part2 := advances.part2
            change lib.frost.recoveryPart2 opened.libState opened.pendingServerInner = _ at part2
            rw [pending] at part2
            exact ⟨result, opener, advancer, _, _, _, _, oldShare, _, _, _, rfl, consecutive, calledFirst, calledSecond, env₁,
              env₂, oldKp, oldPkp, draw, _, inner₁, state₂, inner₂, keyPackage, publicKeyPackage, vkBytes, address, share,
              parsed, advances.parsed, material, part1, part2, part3, serialized, old, derived, built, made⟩

/-! ## Runs of a keygen -/

private theorem toy_part2 {Key : Type} {parts next : Toy.Parts Key} {inner : String}
    (part2 : (do let parts ← parts.advance 2; return (parts, "cGFydDI=")) = (.ok (next, inner) : Except String _)) :
    next.next = 3 := by
  simp only [Toy.Parts.advance] at part2
  split at part2
  · cases part2
    rfl
  · cases part2

private theorem toy_parts : PartsInOrder Toy.libraries.frost := by
  constructor
  · intro state payload next inner part2 later made again
    simp [Toy.libraries, Toy.frost, Toy.Parts.advance, toy_part2 part2] at again
  · intro identifier draw state inner part1 payload keys part3
    cases part1
    cases part3
  · intro state payload next inner part2 later made again
    simp [Toy.libraries, Toy.frost, Toy.Parts.advance, toy_part2 part2] at again
  · intro keyPackage publicKeyPackage draw state inner part1 payload keys part3
    cases part1
    cases part3

/-- A first round that fails stands before the last round. -/
private def keygenCalls : List Call :=
  [keygenCall 1, keygenCall 2, .keygen .engineEd25519 "s" 1 "", keygenCall 0]

private theorem keygen_sequential : (machine Toy.libraries).Reaches Sequential (.initial .empty) (Toy.run keygenCalls) :=
  Machine.reaches_of_allowedAlong startsIdle_sequential _ _ (by decide +kernel)

private theorem keygen_returned : ∃ reply, (Toy.run keygenCalls).Returned 3 (keygenCall 0) (.ok reply) := by
  have completed : Toy.status (Toy.run keygenCalls) 3 = some "completed" := by decide +kernel
  obtain ⟨reply, returned, _⟩ := Toy.returned_of_status rfl completed
  exact ⟨reply, returned⟩

theorem ceremonies_in_order_once :
    ∃ opener advancer, Consecutive (Toy.run keygenCalls) .dkg "s" opener advancer 3 := by
  obtain ⟨reply, returned⟩ := keygen_returned
  obtain ⟨_, opener, advancer, _, _, _, _, _, consecutive, _⟩ :=
    (ceremonies_in_order Toy.libraries toy_parts _ keygen_sequential).1 3 _ "s" _ reply returned (.inl rfl)
  exact ⟨opener, advancer, consecutive⟩

/-- The last first round need not be the one that opened the session. -/
theorem keygen_past_failed_first_round :
    PartsInOrder Toy.libraries.frost ∧ ¬KeygensFromLastFirstRound Toy.libraries := by
  refine ⟨toy_parts, fun counted => ?_⟩
  obtain ⟨reply, returned⟩ := keygen_returned
  have failed : (Toy.run keygenCalls).Called 2 (.keygen .engineEd25519 "s" 1 "") := by
    rw [World.called_iff, Toy.run_called]
    rfl
  obtain ⟨_, advancer, _, _, between, _⟩ := counted _ keygen_sequential 3 "s" _ reply returned 2 "" (by decide) failed
    (by intros; omega)
  obtain ⟨after, before, _⟩ := between
  omega

end CeresMpc.Lifecycle
