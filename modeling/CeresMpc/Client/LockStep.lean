import CeresMpc.Client.Results

/-!
# The client drives the protocol in lock-step

Request `k` is followed by round `k` of the engine on the payload of the response, and request
`k + 1` carries what that round returned. This holds whatever server and engine answer.
-/

set_option autoImplicit false

namespace CeresMpc.Client

open Encoding Json Interleaving Program

/-- What a client operation has asked and was answered, newest first. -/
abbrev Past := List (Entry Ask Ask.Answer)

/-- What is an operation's own in the rounds it drives: the parameters of its first request, its
round `k` for `k ≥ 1`, and its round 0 if it has one. -/
structure Operation where
  method : MpcMethod
  opening : List (String × Json)
  call : String → Nat → String → EngineCall
  collect : String → Option EngineCall

/-- A response to a request, and what the engine made of its payload. -/
structure Turn where
  response : Except String String
  data : List (String × Json)
  answer : Except String String
  result : MpcRoundResult

namespace Operation

variable (convert : Convert) (operation : Operation) (requestId : Nat) (base : Past)

/-- Request `k`. After the first it names the session and carries the last result's payload. -/
def request (sessionId : String) (k : Nat) : Option MpcRoundResult → Json
  | none => rpcRequest (requestId + k) operation.method operation.opening
  | some result => rpcRequest (requestId + k) operation.method
      [("sessionId", .str sessionId), ("round", .int k), ("clientPayload", nullable .str result.clientPayload)]

/-- The past after these turns, which are listed newest first. -/
def driven (sessionId : String) : List Turn → Past
  | [] => base
  | turn :: earlier =>
      ⟨.engine (operation.call sessionId (earlier.length + 1) (convert.jsonEncode (get turn.data "serverPayload"))),
        turn.answer⟩ ::
      ⟨.send (operation.request requestId sessionId (earlier.length + 1) (earlier.head?.map Turn.result)), turn.response⟩ ::
      driven sessionId earlier

/-- The past with the response to one more request. -/
abbrev asked (sessionId : String) (turns : List Turn) (response : Except String String) : Past :=
  ⟨.send (operation.request requestId sessionId (turns.length + 1) (turns.head?.map Turn.result)), response⟩ ::
    driven convert operation requestId base sessionId turns

/-- Turns as the client makes them: the first response names the session, and another request is
sent only after a result that asks to continue. -/
inductive Linked (sessionId : String) : List Turn → Prop where
  | first {turn} : rpcResult convert operation.method turn.response = .ok turn.data →
      asString (get turn.data "sessionId") = .ok sessionId → checkedRound convert turn.answer = .ok turn.result →
      Linked sessionId [turn]
  | next {turn previous earlier} : Linked sessionId (previous :: earlier) → previous.result.isContinue →
      rpcResult convert operation.method turn.response = .ok turn.data → get turn.data "serverPayload" ≠ .null →
      checkedRound convert turn.answer = .ok turn.result → Linked sessionId (turn :: previous :: earlier)

/-- What the operation asks next. -/
inductive Step : Past → Ask → Prop where
  | start : Step base (.send (rpcRequest (requestId + 1) operation.method operation.opening))
  | first {sessionId response data} : rpcResult convert operation.method response = .ok data →
      asString (get data "sessionId") = .ok sessionId →
      Step (asked convert operation requestId base sessionId [] response)
        (.engine (operation.call sessionId 1 (convert.jsonEncode (get data "serverPayload"))))
  | next {sessionId turn earlier} : Linked convert operation sessionId (turn :: earlier) → turn.result.isContinue →
      Step (driven convert operation requestId base sessionId (turn :: earlier))
        (.send (operation.request requestId sessionId (earlier.length + 2) (some turn.result)))
  | call {sessionId turn earlier response data} : Linked convert operation sessionId (turn :: earlier) →
      turn.result.isContinue → rpcResult convert operation.method response = .ok data →
      get data "serverPayload" ≠ .null →
      Step (asked convert operation requestId base sessionId (turn :: earlier) response)
        (.engine (operation.call sessionId (earlier.length + 2) (convert.jsonEncode (get data "serverPayload"))))
  | collect {sessionId turn earlier response data last} : Linked convert operation sessionId (turn :: earlier) →
      turn.result.isContinue → rpcResult convert operation.method response = .ok data →
      get data "serverPayload" = .null → operation.collect sessionId = some last →
      Step (asked convert operation requestId base sessionId (turn :: earlier) response) (.engine last)

/-- The past of an operation that has left its loop. -/
inductive Ended : Past → Prop where
  | result {sessionId turn earlier} : Linked convert operation sessionId (turn :: earlier) →
      ¬turn.result.isContinue → Ended (driven convert operation requestId base sessionId (turn :: earlier))
  | collected {sessionId turn earlier response data last answer} :
      Linked convert operation sessionId (turn :: earlier) → turn.result.isContinue →
      rpcResult convert operation.method response = .ok data → get data "serverPayload" = .null →
      operation.collect sessionId = some last →
      Ended (⟨.engine last, answer⟩ :: asked convert operation requestId base sessionId (turn :: earlier) response)
  | server {sessionId turn earlier response data} : Linked convert operation sessionId (turn :: earlier) →
      turn.result.isContinue → rpcResult convert operation.method response = .ok data →
      get data "serverPayload" = .null → operation.collect sessionId = none →
      Ended (asked convert operation requestId base sessionId (turn :: earlier) response)

/-- An operation that returns has left its loop. -/
def Leaves {Result : Type} (past : Past) (outcome : Except Halt Result) : Prop :=
  ∀ result, outcome = .ok result → Ended convert operation requestId base past

end Operation

/-! ## Loops -/

section Loops

variable {convert : Convert} {permitted : Past → Ask → Prop} {Value Result : Type}
  {finished : Past → Except Halt Result → Prop}

theorem attempt_follows {outcome : Except Thrown Result} {past : Past}
    (ends : ∀ result, outcome = .ok result → finished past (.ok result)) (fails : ∀ halt, finished past (.error halt)) :
    (attempt outcome).Follows permitted finished past := by
  cases outcome with
  | ok value => exact ends value rfl
  | error error => exact fails _

theorem attempt_bind {outcome : Except Thrown Value} {past : Past} {next : Value → ClientM Result}
    (continues : ∀ value, outcome = .ok value → (next value).Follows permitted finished past)
    (fails : ∀ halt, finished past (.error halt)) :
    ((attempt outcome).bind next).Follows permitted finished past := by
  cases outcome with
  | ok value => exact continues value rfl
  | error error => exact fails _

theorem rpcCall_bind {id : Nat} {method : MpcMethod} {params : List (String × Json)} {past : Past}
    {next : List (String × Json) → ClientM Result} (asks : permitted past (.send (rpcRequest id method params)))
    (continues : ∀ response data, rpcResult convert method response = .ok data →
      (next data).Follows permitted finished (⟨.send (rpcRequest id method params), response⟩ :: past))
    (fails : ∀ past halt, finished past (.error halt)) :
    ((rpcCall convert id method params).bind next).Follows permitted finished past := by
  simp only [rpcCall, bind_eq, request_bind, perform_bind]
  refine ⟨asks, fun response => ?_⟩
  exact attempt_bind (fun data read => continues response data read) (fails _)

theorem engineRound_bind {call : EngineCall} {past : Past} {next : MpcRoundResult → ClientM Result}
    (asks : permitted past (.engine call))
    (continues : ∀ answer result, checkedRound convert answer = .ok result →
      (next result).Follows permitted finished (⟨.engine call, answer⟩ :: past))
    (fails : ∀ past halt, finished past (.error halt)) :
    ((engineRound convert call).bind next).Follows permitted finished past := by
  simp only [engineRound, bind_eq, request_bind, perform_bind]
  refine ⟨asks, fun answer => ?_⟩
  exact attempt_bind (fun result read => continues answer result read) (fails _)

theorem engineRound_follows {call : EngineCall} {past : Past} {finished : Past → Except Halt MpcRoundResult → Prop}
    (asks : permitted past (.engine call)) (ends : ∀ answer outcome, finished (⟨.engine call, answer⟩ :: past) outcome) :
    (engineRound convert call).Follows permitted finished past := by
  simp only [engineRound, bind_eq, request_bind]
  exact ⟨asks, fun answer => attempt_follows (fun result _ => ends answer _) fun halt => ends answer _⟩

variable {operation : Operation} {requestId : Nat} {base : Past} {sessionId : String}

open Operation

theorem rounds_follow {Final : Type} {call : Int → String → EngineCall}
    {serverDone : List (String × Json) → MpcRoundResult → ClientM (Final ⊕ MpcRoundResult)}
    (calls : ∀ k payload, 2 ≤ k → call (k : Nat) payload = operation.call sessionId k payload)
    (done : ∀ turn earlier response data, Linked convert operation sessionId (turn :: earlier) → turn.result.isContinue →
      rpcResult convert operation.method response = .ok data → get data "serverPayload" = .null →
      (serverDone data turn.result).Follows (Step convert operation requestId base)
        (Leaves convert operation requestId base)
        (asked convert operation requestId base sessionId (turn :: earlier) response))
    (turns : Nat) {turn : Turn} {earlier : List Turn} (linked : Linked convert operation sessionId (turn :: earlier)) :
    (rounds convert operation.method sessionId call serverDone turns (requestId + (earlier.length + 2))
        ((earlier.length + 2 : Nat) : Int) turn.result).Follows
      (Step convert operation requestId base) (Leaves convert operation requestId base)
      (driven convert operation requestId base sessionId (turn :: earlier)) := by
  induction turns generalizing turn earlier with
  | zero =>
      unfold rounds
      split
      · rintro result ⟨⟩
      · next ended => exact fun _ _ => .result linked ended
  | succ turns ih =>
      unfold rounds
      split
      · next continues =>
        refine rpcCall_bind (.next linked continues) (fun response data read => ?_) (by rintro past halt result ⟨⟩)
        split
        · next nothing => exact done turn earlier response data linked continues read nothing
        · next some =>
          rw [calls _ _ (by omega)]
          refine engineRound_bind (.call linked continues read some) (fun answer result checked => ?_)
            (by rintro past halt result ⟨⟩)
          have further : Linked convert operation sessionId (⟨response, data, answer, result⟩ :: turn :: earlier) :=
            .next linked continues read some checked
          exact ih further
      · next ended => exact fun _ _ => .result linked ended

/-- The first turn and the loop after it, inside an operation that may ask more once it has left the loop. -/
theorem drive_follows {Final : Type} {call : String → Int → String → EngineCall}
    {serverDone : String → List (String × Json) → MpcRoundResult → ClientM (Final ⊕ MpcRoundResult)}
    {next : Final ⊕ MpcRoundResult → ClientM Result} {turns : Nat}
    (steps : ∀ past ask, Step convert operation requestId base past ask → permitted past ask)
    (calls : ∀ sessionId k payload, 2 ≤ k → call sessionId (k : Nat) payload = operation.call sessionId k payload)
    (done : ∀ sessionId turn earlier response data, Linked convert operation sessionId (turn :: earlier) →
      turn.result.isContinue → rpcResult convert operation.method response = .ok data → get data "serverPayload" = .null →
      (serverDone sessionId data turn.result).Follows (Step convert operation requestId base)
        (Leaves convert operation requestId base)
        (asked convert operation requestId base sessionId (turn :: earlier) response))
    (ends : ∀ past value, Ended convert operation requestId base past → (next value).Follows permitted finished past)
    (fails : ∀ past halt, finished past (.error halt)) :
    ((rpcCall convert (requestId + 1) operation.method operation.opening).bind fun initData =>
      (attempt (asString (get initData "sessionId"))).bind fun sessionId =>
        (engineRound convert (operation.call sessionId 1 (convert.jsonEncode (get initData "serverPayload")))).bind
          fun firstResult => (rounds convert operation.method sessionId (call sessionId) (serverDone sessionId) turns
            (requestId + 2) 2 firstResult).bind next).Follows permitted finished base := by
  refine rpcCall_bind (steps _ _ .start) (fun response data read => ?_) fails
  refine attempt_bind (fun sessionId named => ?_) (fails _)
  have opens : Step convert operation requestId base (asked convert operation requestId base sessionId [] response)
      (.engine (operation.call sessionId 1 (convert.jsonEncode (get data "serverPayload")))) := .first read named
  refine engineRound_bind (steps _ _ opens) (fun answer result checked => ?_) fails
  have linked : Linked convert operation sessionId [⟨response, data, answer, result⟩] := .first read named checked
  have follows := rounds_follow (calls sessionId) (fun turn earlier => done sessionId turn earlier) turns linked
  refine (follows_bind _ _).mpr (follows.mono steps fun past outcome leaves => ?_)
  cases outcome with
  | ok value => exact ends past value (leaves value rfl)
  | error halt => exact fails past halt

end Loops

/-! ## Operations -/

def keygenOperation (curve : Api.Curve) : Operation :=
  { method := .keygen, opening := [("round", .int 1), ("curve", .str curve.asStr)]
    call := fun sessionId k payload => .keygen sessionId k payload
    collect := fun sessionId => some (.keygen sessionId 0 "") }

def recoverOperation (mpcKeyId backupShare : String) (currentRotationVersion : Int) : Operation :=
  { method := .recovery
    opening := [("mpcKeyId", .str mpcKeyId), ("round", .int 1), ("currentRotationVersion", .int currentRotationVersion)]
    call := fun sessionId k payload =>
      if k = 1 then .recover sessionId 1 payload (some backupShare) (some currentRotationVersion)
      else .recover sessionId k payload none none
    collect := fun sessionId => some (.recover sessionId 0 "" none none) }

def signOperation (mpcKeyId messageHash localEncryptedShare : String) : Operation :=
  { method := .sign, opening := [("mpcKeyId", .str mpcKeyId), ("messageHash", .str messageHash), ("round", .int 1)]
    call := fun sessionId k payload =>
      if k = 1 then .sign sessionId 1 payload (some localEncryptedShare) (some messageHash)
      else .sign sessionId k payload none none
    collect := fun _ => none }

section Operations

variable (convert : Convert)

open Operation

theorem keygen_driven (turns requestId : Nat) (curve : Api.Curve) :
    (keygen convert turns requestId curve).Follows (Step convert (keygenOperation curve) requestId [])
      (Leaves convert (keygenOperation curve) requestId []) [] := by
  have follows := @drive_follows convert (Step convert (keygenOperation curve) requestId []) KeygenResult
    (Leaves convert (keygenOperation curve) requestId []) (keygenOperation curve) requestId [] Empty
    (fun sessionId round payload => .keygen sessionId round payload)
    (fun sessionId _ _ => Sum.inr <$> engineRound convert (.keygen sessionId 0 ""))
  refine follows (fun _ _ step => step) (fun _ _ _ _ => rfl) ?_ ?_ (by rintro past halt result ⟨⟩)
  · intro sessionId turn earlier response data linked continues read nothing
    refine (follows_map _ _).mpr (engineRound_follows (.collect linked continues read nothing rfl) fun answer outcome => ?_)
    exact fun _ _ => .collected linked continues read nothing rfl
  · intro past value ended
    cases value with
    | inl impossible => exact impossible.elim
    | inr currentResult => exact attempt_follows (fun _ _ _ _ => ended) (by rintro halt result ⟨⟩)

theorem sign_driven (turns requestId : Nat) (mpcKeyId messageHash localEncryptedShare : String) :
    (sign convert turns requestId mpcKeyId messageHash localEncryptedShare).Follows
      (Step convert (signOperation mpcKeyId messageHash localEncryptedShare) requestId [])
      (Leaves convert (signOperation mpcKeyId messageHash localEncryptedShare) requestId []) [] := by
  have follows := @drive_follows convert
    (Step convert (signOperation mpcKeyId messageHash localEncryptedShare) requestId []) SignResult
    (Leaves convert (signOperation mpcKeyId messageHash localEncryptedShare) requestId [])
    (signOperation mpcKeyId messageHash localEncryptedShare) requestId [] SignResult
    (fun sessionId round payload => .sign sessionId round payload none none)
    (fun _ serverData currentResult =>
      if serverSigned serverData then Sum.inl <$> attempt (SignResult.fromJson serverData)
      else .done (.ok (.inr currentResult)))
  refine follows (fun _ _ step => step) ?_ ?_ ?_ (by rintro past halt result ⟨⟩)
  · intro sessionId k payload later
    have other : k ≠ 1 := by omega
    simp [signOperation, other]
  · intro sessionId turn earlier response data linked continues read nothing
    have leaves : Ended convert (signOperation mpcKeyId messageHash localEncryptedShare) requestId []
        (asked convert (signOperation mpcKeyId messageHash localEncryptedShare) requestId [] sessionId (turn :: earlier)
          response) := .server linked continues read nothing rfl
    split
    · refine (follows_map _ _).mpr (attempt_follows (fun _ _ _ _ => leaves) ?_)
      rintro halt result ⟨⟩
    · exact fun _ _ => leaves
  · intro past value ended
    cases value with
    | inl result => exact fun _ _ => ended
    | inr currentResult => exact attempt_follows (fun _ _ _ _ => ended) (by rintro halt result ⟨⟩)

/-! ## Recovery -/

section Recover

variable (requestId : Nat) (mpcKeyId encryptedBackupShare userBackupSecret : String) (currentRotationVersion : Int)
  (newUserBackupSecret : Option String)

/-- What recovery has asked before it drives its rounds. -/
abbrev opened (decrypted : Except String String) : Past :=
  [⟨.decryptBackupShare encryptedBackupShare userBackupSecret, decrypted⟩]

/-- Recovery decrypts its backup, drives its rounds, and seals a new backup. -/
inductive RecoverStep : Past → Ask → Prop where
  | decrypt : RecoverStep [] (.decryptBackupShare encryptedBackupShare userBackupSecret)
  | drive {decrypted backupShare past ask} : deviceBackupShare convert decrypted = .ok backupShare →
      Step convert (recoverOperation mpcKeyId backupShare currentRotationVersion) requestId
        (opened encryptedBackupShare userBackupSecret decrypted) past ask → RecoverStep past ask
  | now {decrypted backupShare past} :
      Ended convert (recoverOperation mpcKeyId backupShare currentRotationVersion) requestId
        (opened encryptedBackupShare userBackupSecret decrypted) past → RecoverStep past .utcNow
  | derive {decrypted backupShare past share newSecret createdAt} :
      Ended convert (recoverOperation mpcKeyId backupShare currentRotationVersion) requestId
        (opened encryptedBackupShare userBackupSecret decrypted) past → newUserBackupSecret = some newSecret →
      RecoverStep (⟨.utcNow, createdAt⟩ :: past) (.deriveBackupEnvelope share newSecret createdAt)

/-- A recovery that returns has left its loop, and then at most sealed a backup; the id is the caller's. -/
def RecoverLeaves (past : Past) (outcome : Except Halt RecoveryResult) : Prop :=
  ∀ result, outcome = .ok result → result.mpcKeyId = mpcKeyId ∧ ∃ decrypted backupShare sealing rest,
    past = sealing ++ rest ∧ (∀ entry ∈ sealing, entry.1 = .utcNow ∨ ∃ share secret createdAt,
      entry.1 = .deriveBackupEnvelope share secret createdAt) ∧
    Ended convert (recoverOperation mpcKeyId backupShare currentRotationVersion) requestId
      (opened encryptedBackupShare userBackupSecret decrypted) rest

variable {convert mpcKeyId}

theorem recoveryEnd_id {currentResult : MpcRoundResult} {result : RecoveryResult}
    (read : recoveryEnd convert mpcKeyId currentResult = .ok result) : result.mpcKeyId = mpcKeyId := by
  unfold recoveryEnd at read
  split at read
  · rw [bind_eq_ok] at read
    obtain ⟨payload, _, made⟩ := read
    split at made
    · cases made
      rfl
    · next same =>
      cases made
      exact not_not.mp same
  · cases read

variable (convert mpcKeyId)

theorem recover_driven (turns : Nat) :
    (recover convert turns requestId mpcKeyId encryptedBackupShare userBackupSecret currentRotationVersion
        newUserBackupSecret).Follows
      (RecoverStep convert requestId mpcKeyId encryptedBackupShare userBackupSecret currentRotationVersion
        newUserBackupSecret)
      (RecoverLeaves convert requestId mpcKeyId encryptedBackupShare userBackupSecret currentRotationVersion) [] := by
  simp only [recover, bind_eq, request_bind]
  refine ⟨.decrypt, fun decrypted => attempt_bind (fun backupShare read => ?_) (by rintro halt result ⟨⟩)⟩
  have follows := @drive_follows convert (RecoverStep convert requestId mpcKeyId encryptedBackupShare userBackupSecret
      currentRotationVersion newUserBackupSecret) RecoveryResult
    (RecoverLeaves convert requestId mpcKeyId encryptedBackupShare userBackupSecret currentRotationVersion)
    (recoverOperation mpcKeyId backupShare currentRotationVersion) requestId
    (opened encryptedBackupShare userBackupSecret decrypted) Empty
    (fun sessionId round payload => .recover sessionId round payload none none)
    (fun sessionId _ _ => Sum.inr <$> engineRound convert (.recover sessionId 0 "" none none))
  refine follows (fun _ _ step => .drive read step) ?_ ?_ ?_ (by rintro past halt result ⟨⟩)
  · intro sessionId k payload later
    have other : k ≠ 1 := by omega
    simp [recoverOperation, other]
  · intro sessionId turn earlier response data linked continues received nothing
    refine (follows_map _ _).mpr (engineRound_follows (.collect linked continues received nothing rfl)
      fun answer outcome => ?_)
    exact fun _ _ => .collected linked continues received nothing rfl
  · intro past value ended
    cases value with
    | inl impossible => exact impossible.elim
    | inr currentResult =>
        refine attempt_bind (fun result finished => ?_) (by rintro halt result ⟨⟩)
        have named := recoveryEnd_id finished
        cases newUserBackupSecret with
        | none =>
            rintro outcome ⟨⟩
            exact ⟨named, decrypted, backupShare, [], past, rfl, by simp, ended⟩
        | some newSecret =>
            refine ⟨.now ended, fun createdAt => ⟨.derive ended rfl, fun derived => ?_⟩⟩
            refine attempt_bind (fun envelope _ => ?_) (by rintro halt result ⟨⟩)
            rintro outcome ⟨⟩
            refine ⟨named, decrypted, backupShare, [_, _], past, rfl, ?_, ended⟩
            intro entry member
            rcases List.mem_cons.mp member with rfl | member
            · exact .inr ⟨_, _, _, rfl⟩
            · rw [List.mem_singleton.mp member]
              exact .inl rfl

end Recover

end Operations

/-! ## Round 0 -/

def EngineCall.round : EngineCall → Int
  | .keygen _ round _ | .recover _ round _ _ _ | .sign _ round _ _ _ => round

/-- Requests to the server and rounds of the engine. -/
def Ask.Drives : Ask → Prop
  | .send _ | .engine _ => True
  | _ => False

/-- The engine has not been asked for round 0. -/
def Uncollected (past : Past) : Prop :=
  ∀ entry ∈ past, ∀ call, entry.1 = .engine call → call.round ≠ 0

section Uncollected

variable {convert : Convert} {operation : Operation} {requestId : Nat} {base : Past}

theorem driven_uncollected (numbered : ∀ sessionId k payload, (operation.call sessionId k payload).round = k)
    (clean : Uncollected base) (sessionId : String) (turns : List Turn) :
    Uncollected (operation.driven convert requestId base sessionId turns) := by
  induction turns with
  | nil => exact clean
  | cons turn earlier ih =>
      intro entry member call called
      rcases List.mem_cons.mp member with rfl | member
      · cases called
        rw [numbered]
        omega
      · rcases List.mem_cons.mp member with rfl | member
        · cases called
        · exact ih entry member call called

/-- Nothing the operation asks of server or engine comes after round 0. -/
theorem step_uncollected (numbered : ∀ sessionId k payload, (operation.call sessionId k payload).round = k)
    (clean : Uncollected base) {past : Past} {ask : Ask} (step : operation.Step convert requestId base past ask) :
    Uncollected past := by
  have asked (sessionId : String) (turns : List Turn) (response : Except String String) :
      Uncollected (operation.asked convert requestId base sessionId turns response) := by
    intro entry member call called
    rcases List.mem_cons.mp member with rfl | member
    · cases called
    · exact driven_uncollected numbered clean sessionId turns entry member call called
  cases step with
  | start => exact clean
  | first => exact asked _ _ _
  | next => exact driven_uncollected numbered clean _ _
  | call => exact asked _ _ _
  | collect => exact asked _ _ _

end Uncollected

/-- Every operation asks what its steps say after each past, whatever it is answered, and nothing of
server or engine after round 0; signing never comes to round 0. One that returns has left its loop,
and a recovery returns the caller's id. -/
theorem lock_step (convert : Convert) (turns requestId : Nat) :
    (∀ curve, (keygen convert turns requestId curve).Follows
      (fun past ask => (keygenOperation curve).Step convert requestId [] past ask ∧ Uncollected past)
      ((keygenOperation curve).Leaves convert requestId []) []) ∧
    (∀ mpcKeyId messageHash share, (sign convert turns requestId mpcKeyId messageHash share).Follows
      (fun past ask => (signOperation mpcKeyId messageHash share).Step convert requestId [] past ask ∧
        ∀ call, ask = .engine call → call.round ≠ 0)
      ((signOperation mpcKeyId messageHash share).Leaves convert requestId []) []) ∧
    ∀ mpcKeyId encryptedBackupShare userBackupSecret currentRotationVersion newUserBackupSecret,
      (recover convert turns requestId mpcKeyId encryptedBackupShare userBackupSecret currentRotationVersion
        newUserBackupSecret).Follows
        (fun past ask => RecoverStep convert requestId mpcKeyId encryptedBackupShare userBackupSecret
          currentRotationVersion newUserBackupSecret past ask ∧ (ask.Drives → Uncollected past))
        (RecoverLeaves convert requestId mpcKeyId encryptedBackupShare userBackupSecret currentRotationVersion) [] := by
  have empty : Uncollected [] := by
    intro entry member
    cases member
  refine ⟨fun curve => ?_, fun mpcKeyId messageHash share => ?_, fun mpcKeyId encrypted secret version newSecret => ?_⟩
  · refine (keygen_driven convert turns requestId curve).mono (fun past ask step => ⟨step, ?_⟩) fun _ _ leaves => leaves
    exact step_uncollected (fun _ _ _ => rfl) empty step
  · refine (sign_driven convert turns requestId mpcKeyId messageHash share).mono (fun past ask step => ⟨step, ?_⟩)
      fun _ _ leaves => leaves
    intro call called
    cases step with
    | first =>
        cases called
        simp [signOperation, EngineCall.round]
    | call =>
        cases called
        simp [signOperation, EngineCall.round]
        omega
    | collect _ _ _ _ collects => cases collects
    | start | next => cases called
  · refine (recover_driven convert requestId mpcKeyId encrypted secret version newSecret turns).mono
      (fun past ask step => ⟨step, fun drives => ?_⟩) fun _ _ leaves => leaves
    cases step with
    | decrypt => exact empty
    | @drive decrypted backupShare past ask read step =>
        refine step_uncollected (fun sessionId k payload => ?_) ?_ step
        · by_cases first : k = 1
          · simp [recoverOperation, EngineCall.round, first]
          · simp [recoverOperation, EngineCall.round, first]
        · intro entry member call called
          rw [List.mem_singleton.mp member] at called
          cases called
    | now | derive => exact drives.elim

end CeresMpc.Client
