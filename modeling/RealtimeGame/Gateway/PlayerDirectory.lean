import RealtimeGame.Common.Logging
import RealtimeGame.Common.Mysql
import RealtimeGame.Gateway.GatewayProto

/-!
# Gateway/PlayerDirectory — who may log in

A profile is a row of `players`, which has no passwords; the passwords of the test accounts are in the code, as
digests.  What the digest of a password is, is OpenSSL's business and the parameter `sha256` here, without a
value if one of its calls fails.
-/

open RealtimeGame.Common

namespace RealtimeGame.Gateway

/-! ## Passwords

Two digests are compared to the end, whatever differs. -/

def kDigestLength : Nat := 32

section

variable (sha256 : String → Option Bytes)

def hashPassword (password : String) : Bytes :=
  match sha256 password with
  | some digest =>
    if digest.length ≠ kDigestLength then []
    else digest.flatMap fun byte => [hexDigit (byte / 16), hexDigit (byte % 16)]
  | none => []

/-- The loop: every difference is kept, and none ends it. -/
def differences (lhs rhs : Bytes) : UInt8 :=
  (lhs.zip rhs).foldl (fun diff pair => diff ||| (pair.1 ^^^ pair.2)) 0

def constantTimeEquals (lhs rhs : Bytes) : Bool :=
  if lhs.length ≠ rhs.length then false else differences lhs rhs = 0

/-! ## Test accounts

They are in the code, and may be switched off. -/

/-- Accounts and their passwords. -/
def kBuiltinAccounts : List (String × String) :=
  [("alice", "alice_dev_pw"), ("bob", "bob_dev_pw"), ("carol", "carol_dev_pw"), ("dave", "dave_dev_pw")]

def kSyntheticBenchPassword : String := "bench_dev_pw"
def kSyntheticBenchPrefix : List Char := "bench-".toList
def kSyntheticBenchDigits : Nat := 5

/-- `bench-` and exactly five digits. -/
def isSyntheticBenchAccount (account : String) : Bool :=
  if account.utf8ByteSize ≠ kSyntheticBenchPrefix.length + kSyntheticBenchDigits then false
  else if account.toList.take kSyntheticBenchPrefix.length ≠ kSyntheticBenchPrefix then false
  else (account.toList.drop kSyntheticBenchPrefix.length).all fun ch => '0' ≤ ch ∧ ch ≤ '9'

structure TestCredential where
  account : String
  passwordHash : Bytes

def builtinTestCredentials : List TestCredential :=
  kBuiltinAccounts.map fun account => ⟨account.1, hashPassword sha256 account.2⟩

/-- `FindTestPasswordHash`; the accounts of the load tests are known only if they are `enabled`. -/
def findTestPasswordHash (enabled : Bool) (account : String) : Bytes :=
  match (builtinTestCredentials sha256).find? (·.account = account) with
  | some credential => credential.passwordHash
  | none =>
    if enabled && isSyntheticBenchAccount account then hashPassword sha256 kSyntheticBenchPassword else []

/-! ## Profiles

A row of the table, read through the buffers of the connection. -/

structure PlayerRecord where
  playerId : String
  account : String
  displayName : String
  status : String
  deriving DecidableEq, Repr

/-- The results other than `kOk` of `ReaderStatus`; `kOk` comes with a record. -/
inductive ReaderStatus
  | notFound
  | unavailable
  deriving DecidableEq, Repr

/-- `MysqlPlayerReader::QueryOne`. -/
def queryOne : SqlAnswer → Except ReaderStatus PlayerRecord
  | none => .error .unavailable
  | some [] => .error .notFound
  | some ([some playerId, some account, some displayName, some status] :: _) =>
    .ok ⟨playerId, account, displayName, status⟩
  | some (_ :: _) => .error .unavailable

def toPlayerInfo (record : PlayerRecord) : Proto.PlayerInfo := ⟨record.playerId, record.displayName, record.status⟩

/-! ## Directories

One in the database, and one in memory for development; both check in the same order. -/

/-- The results other than `kOk` of `CredentialStatus`; `kOk` comes with a player. -/
inductive CredentialStatus
  | invalidCredential
  | accountDisabled
  | unavailable
  deriving DecidableEq, Repr

namespace DatabasePlayerDirectory

/-- **`Authenticate`**, for what the reader finds by the account. -/
def authenticate (enabled : Bool) (find : Except ReaderStatus PlayerRecord) (account password : String) :
    Except CredentialStatus Proto.PlayerInfo :=
  match find with
  | .error .unavailable => .error .unavailable
  | .error .notFound => .error .invalidCredential
  | .ok record =>
    if findTestPasswordHash sha256 enabled account = [] then .error .invalidCredential
    else if !constantTimeEquals (hashPassword sha256 password) (findTestPasswordHash sha256 enabled account) then
      .error .invalidCredential
    else if record.status ≠ "active" then .error .accountDisabled
    else .ok (toPlayerInfo record)

/-- `FindByPlayerId`, for what the reader finds by the id. -/
def findByPlayerId : Except ReaderStatus PlayerRecord → Option Proto.PlayerInfo
  | .ok record => some (toPlayerInfo record)
  | .error _ => none

end DatabasePlayerDirectory

namespace InMemoryPlayerDirectory

structure Entry where
  account : String
  passwordHash : Bytes
  playerId : String
  displayName : String
  status : String

def Entry.toPlayerInfo (entry : Entry) : Proto.PlayerInfo := ⟨entry.playerId, entry.displayName, entry.status⟩

def authenticate (entries : List Entry) (account password : String) :
    Except CredentialStatus Proto.PlayerInfo :=
  match entries.find? (·.account = account) with
  | none => .error .invalidCredential
  | some entry =>
    if !constantTimeEquals (hashPassword sha256 password) entry.passwordHash then .error .invalidCredential
    else if entry.status ≠ "active" then .error .accountDisabled
    else .ok entry.toPlayerInfo

end InMemoryPlayerDirectory

/-! ## What is compared

The differences are collected in one byte, which is zero at the end or not. -/

variable {sha256} {lhs rhs : Bytes}

theorem xor_eq_zero {x y : UInt8} : x ^^^ y = 0 ↔ x = y := by
  rw [← UInt8.toBitVec_inj, ← UInt8.toBitVec_inj]
  exact BitVec.xor_eq_zero_iff

theorem or_eq_zero {x y : UInt8} : x ||| y = 0 ↔ x = 0 ∧ y = 0 := by
  rw [← UInt8.toBitVec_inj, ← UInt8.toBitVec_inj, ← UInt8.toBitVec_inj]
  exact BitVec.or_eq_zero_iff

/-- The loop is left with nothing exactly if no pair differs. -/
theorem foldl_differences_eq_zero (pairs : List (UInt8 × UInt8)) (diff : UInt8) :
    pairs.foldl (fun diff pair => diff ||| (pair.1 ^^^ pair.2)) diff = 0 ↔
      diff = 0 ∧ ∀ pair ∈ pairs, pair.1 = pair.2 := by
  induction pairs generalizing diff with
  | nil => simp
  | cons pair pairs ih => rw [List.foldl_cons, ih, or_eq_zero, xor_eq_zero, List.forall_mem_cons, and_assoc]

/-- Two texts of one length are equal if their pairs are. -/
theorem eq_of_zip (hlength : lhs.length = rhs.length) (h : ∀ pair ∈ lhs.zip rhs, pair.1 = pair.2) : lhs = rhs := by
  refine List.ext_getElem hlength fun i hl hr => ?_
  exact h (lhs[i], rhs[i]) (List.mem_iff_getElem.mpr ⟨i, by simpa [hlength] using hr, List.getElem_zip⟩)

/-- **It compares**, though it never stops early. -/
theorem constantTimeEquals_iff : constantTimeEquals lhs rhs = true ↔ lhs = rhs := by
  rw [constantTimeEquals]
  split
  case isTrue h => exact iff_of_false Bool.false_ne_true fun heq => h (heq ▸ rfl)
  case isFalse h =>
    rw [not_not] at h
    rw [decide_eq_true_iff, differences, foldl_differences_eq_zero, and_iff_right rfl]
    refine ⟨eq_of_zip h, ?_⟩
    rintro rfl pair hpair
    obtain ⟨i, hi, rfl⟩ := List.mem_iff_getElem.mp hpair
    simp

/-! ## What an answer tells

The password is checked before the status is told. -/

variable (sha256) (enabled : Bool) (account password : String)

/-- The password is the one of the account. -/
def Knows : Prop :=
  findTestPasswordHash sha256 enabled account ≠ [] ∧
    hashPassword sha256 password = findTestPasswordHash sha256 enabled account

variable {sha256 enabled account password} {find find' : Except ReaderStatus PlayerRecord}

/-- Who knows the password is told what the profile is like, -/
theorem authenticate_of_knows (h : Knows sha256 enabled account password) {record : PlayerRecord} :
    DatabasePlayerDirectory.authenticate sha256 enabled (.ok record) account password =
      if record.status ≠ "active" then .error .accountDisabled else .ok (toPlayerInfo record) := by
  simp only [DatabasePlayerDirectory.authenticate, if_neg h.1, constantTimeEquals_iff.mpr h.2, Bool.not_true,
    Bool.false_eq_true, if_false]

/-- …and who does not is told one thing only. -/
theorem authenticate_of_not_knows (h : ¬Knows sha256 enabled account password)
    (hfind : find ≠ .error .unavailable) :
    DatabasePlayerDirectory.authenticate sha256 enabled find account password = .error .invalidCredential := by
  rcases find with (_ | _) | record
  · rfl
  · exact absurd rfl hfind
  · rw [DatabasePlayerDirectory.authenticate]
    split_ifs with hempty hequal
    · rfl
    · rfl
    · refine absurd ⟨hempty, constantTimeEquals_iff.mp ?_⟩ h
      simpa using hequal
    · refine absurd ⟨hempty, constantTimeEquals_iff.mp ?_⟩ h
      simpa using hequal

/-- **An answer tells something of the profiles only to who knows the password**: to anybody else it is the same
for an account that is there, that is not, and that is disabled. -/
theorem authenticate_hides_iff :
    (∀ find find', find ≠ .error .unavailable → find' ≠ .error .unavailable →
      DatabasePlayerDirectory.authenticate sha256 enabled find account password =
        DatabasePlayerDirectory.authenticate sha256 enabled find' account password) ↔
      ¬Knows sha256 enabled account password := by
  refine ⟨fun hsame hknows => ?_, fun h find find' hfind hfind' => ?_⟩
  · have h := hsame (.error .notFound) (.ok ⟨"", account, "", ""⟩) (by simp) (by simp)
    rw [authenticate_of_knows hknows] at h
    cases h
  · rw [authenticate_of_not_knows h hfind, authenticate_of_not_knows h hfind']

/-! ## Two directories

The column compares by its collation, memory by the bytes; so the two agree where that makes no difference. -/

def PlayerRecord.columns (record : PlayerRecord) : SqlRow :=
  [some record.playerId, some record.account, some record.displayName, some record.status]

/-- No column of the profile is too long to be read. -/
def PlayerRecord.Fits (record : PlayerRecord) : Prop :=
  fitsBuffer record.playerId ∧ fitsBuffer record.account ∧ fitsBuffer record.displayName ∧
    fitsBuffer record.status

instance (record : PlayerRecord) : Decidable record.Fits := inferInstanceAs (Decidable (_ ∧ _))

/-- `kSelectByAccount`, on a connection that is up. -/
def selectByAccount (collation : Collation) (rows : List PlayerRecord) (account : String) : SqlAnswer :=
  fetchRows (((rows.filter fun row => collation row.account = collation account).take 1).map
    PlayerRecord.columns)

/-- The entry for a row, with the password from the code. -/
def entryOf (sha256 : String → Option Bytes) (enabled : Bool) (record : PlayerRecord) :
    InMemoryPlayerDirectory.Entry where
  account := record.account
  passwordHash := findTestPasswordHash sha256 enabled record.account
  playerId := record.playerId
  displayName := record.displayName
  status := record.status

variable {collation : Collation} {rows : List PlayerRecord}

/-- The one row that is found can be read. -/
theorem queryOne_selectByAccount (hfits : ∀ row ∈ rows, row.Fits) :
    queryOne (selectByAccount collation rows account) =
      match rows.find? fun row => collation row.account = collation account with
      | some record => .ok record
      | none => .error .notFound := by
  rw [selectByAccount, ← List.head?_filter]
  cases hfound : rows.filter fun row => collation row.account = collation account with
  | nil => rfl
  | cons record rest =>
    have hmem : record ∈ rows := List.mem_of_mem_filter (hfound ▸ List.mem_cons_self)
    obtain ⟨hid, haccount, hname, hstatus⟩ := hfits record hmem
    rw [fetchRows, if_pos]
    · rfl
    · simp [PlayerRecord.columns, hid, haccount, hname, hstatus]

/-- An account is found in the one directory where it is in the other. -/
theorem find?_entryOf :
    (rows.map (entryOf sha256 enabled)).find? (·.account = account) =
      (rows.find? (·.account = account)).map (entryOf sha256 enabled) := by
  rw [List.find?_map]
  rfl

/-- The row that is found is the one with the account, if there is one. -/
theorem find?_collation (hunique : (rows.map fun row => collation row.account).Nodup)
    {record : PlayerRecord} (h : rows.find? (·.account = account) = some record) :
    rows.find? (fun row => collation row.account = collation account) = some record := by
  induction rows with
  | nil => cases h
  | cons row rows ih =>
    rw [List.map_cons, List.nodup_cons, List.mem_map] at hunique
    by_cases heq : row.account = account
    · rw [List.find?_cons_of_pos (by simpa using heq)] at h
      rw [List.find?_cons_of_pos (by simp [heq]), h]
    · rw [List.find?_cons_of_neg (by simpa using heq)] at h
      have haccount : record.account = account := by simpa using List.find?_some h
      have hother : collation row.account ≠ collation account := fun hsame =>
        hunique.1 ⟨record, List.mem_of_find?_eq_some h, by rw [haccount, hsame]⟩
      rw [List.find?_cons_of_neg (by simpa using hother)]
      exact ih hunique.2 h

/-- **The two directories agree** — over the same profiles, of which no two have accounts that compare equal, the
one in memory answers every login as the one over the table does: if every profile can be read, an account with a
password is spelled in the table as in the code, and the digests can be made. -/
theorem authenticate_agree (hunique : (rows.map fun row => collation row.account).Nodup)
    (hfits : ∀ row ∈ rows, row.Fits)
    (hspelled : ∀ row ∈ rows, ∀ account, collation row.account = collation account →
      findTestPasswordHash sha256 enabled account ≠ [] → row.account = account)
    (hdigest : ∀ password, hashPassword sha256 password ≠ []) (account password : String) :
    DatabasePlayerDirectory.authenticate sha256 enabled (queryOne (selectByAccount collation rows account))
        account password =
      InMemoryPlayerDirectory.authenticate sha256 (rows.map (entryOf sha256 enabled)) account password := by
  rw [queryOne_selectByAccount hfits, InMemoryPlayerDirectory.authenticate, find?_entryOf]
  cases hexact : rows.find? (·.account = account) with
  | none =>
    -- A row that is found all the same is spelled in another way, and has no password.
    cases hfound : rows.find? (fun row => collation row.account = collation account) with
    | none => rfl
    | some record =>
      refine authenticate_of_not_knows (fun hknows => ?_) (by simp)
      have hmem := List.mem_of_find?_eq_some hfound
      have hsame : collation record.account = collation account := by simpa using List.find?_some hfound
      refine absurd (hspelled record hmem account hsame hknows.1) ?_
      simpa using List.find?_eq_none.mp hexact record hmem
  | some record =>
    have haccount : record.account = account := by simpa using List.find?_some hexact
    rw [find?_collation hunique hexact, Option.map_some]
    by_cases hknows : Knows sha256 enabled account password
    · have hequal : constantTimeEquals (hashPassword sha256 password)
          (findTestPasswordHash sha256 enabled record.account) = true :=
        constantTimeEquals_iff.mpr (haccount ▸ hknows.2)
      simp only [authenticate_of_knows hknows, entryOf, hequal, Bool.not_true, Bool.false_eq_true, if_false]
      rfl
    · have hdiffer : constantTimeEquals (hashPassword sha256 password)
          (findTestPasswordHash sha256 enabled record.account) = false := by
        refine Bool.eq_false_iff.mpr fun hequal => hknows ?_
        rw [constantTimeEquals_iff, haccount] at hequal
        exact ⟨hequal ▸ hdigest password, hequal⟩
      rw [authenticate_of_not_knows hknows (by simp)]
      simp only [entryOf, hdiffer, Bool.not_false, if_true]

/-- Only the accounts in the code have a password. -/
theorem mem_of_findTestPasswordHash (h : findTestPasswordHash sha256 false account ≠ []) :
    account ∈ kBuiltinAccounts.map Prod.fst := by
  rw [findTestPasswordHash] at h
  split at h
  case h_1 credential hfind =>
    obtain ⟨builtin, hmem, rfl⟩ := List.mem_map.mp (List.mem_of_find?_eq_some hfind)
    exact List.mem_map.mpr ⟨builtin, hmem, by simpa using List.find?_some hfind⟩
  case h_2 => exact absurd rfl h

end

/-! The players of a development environment. -/

/-- The digests of the passwords in the code. -/
def devSha256 (password : String) : Option Bytes :=
  some (if password = "alice_dev_pw" then
    [40, 64, 13, 204, 73, 199, 142, 177, 216, 191, 105, 131, 209, 30, 19, 77, 128, 230, 245, 36, 226, 191, 222, 57,
      8, 198, 145, 214, 190, 77, 63, 53]
  else if password = "bob_dev_pw" then
    [27, 31, 194, 239, 154, 72, 65, 22, 227, 147, 252, 51, 217, 117, 125, 113, 230, 52, 138, 208, 137, 76, 203, 165,
      187, 172, 69, 7, 230, 155, 42, 188]
  else if password = "carol_dev_pw" then
    [13, 180, 43, 94, 93, 65, 11, 192, 55, 201, 207, 147, 228, 55, 66, 156, 198, 235, 35, 196, 146, 91, 123, 55, 193,
      39, 129, 2, 160, 113, 244, 26]
  else if password = "dave_dev_pw" then
    [101, 218, 117, 238, 205, 167, 119, 234, 90, 42, 218, 150, 180, 109, 105, 174, 136, 249, 70, 55, 16, 51, 117,
      155, 247, 23, 80, 182, 100, 44, 35, 79]
  else List.replicate kDigestLength 0)

theorem hashPassword_devSha256 (password : String) : hashPassword devSha256 password ≠ [] := by
  rw [hashPassword, devSha256]
  split_ifs <;> decide

def seedPlayers : List PlayerRecord :=
  [⟨"p-0001", "alice", "Alice", "active"⟩, ⟨"p-0002", "bob", "Bob", "active"⟩,
    ⟨"p-0003", "carol", "Carol", "disabled"⟩, ⟨"p-0004", "dave", "Dave", "active"⟩]

theorem authenticate_agree_seedPlayers :
    DatabasePlayerDirectory.authenticate devSha256 false
        (queryOne (selectByAccount caseFolded seedPlayers "alice")) "alice" "alice_dev_pw" =
      InMemoryPlayerDirectory.authenticate devSha256 (seedPlayers.map (entryOf devSha256 false)) "alice"
        "alice_dev_pw" :=
  authenticate_agree (by decide) (by decide)
    (fun row hrow account hsame hhash =>
      (by decide : ∀ row ∈ seedPlayers, ∀ account ∈ kBuiltinAccounts.map Prod.fst,
        caseFolded row.account = caseFolded account → row.account = account)
        row hrow account (mem_of_findTestPasswordHash hhash) hsame)
    hashPassword_devSha256 "alice" "alice_dev_pw"

example : InMemoryPlayerDirectory.authenticate devSha256 (seedPlayers.map (entryOf devSha256 false)) "carol"
    "carol_dev_pw" = .error .accountDisabled := by decide

end RealtimeGame.Gateway
