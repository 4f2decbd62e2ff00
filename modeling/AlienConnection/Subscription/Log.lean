import AlienConnection.Subscription.Ledger

/-!
# The log of a synchronisation

All that a synchronisation does to a table follows from three lists: the profiles
offered so far, those of them that had no counterpart, and the links that were
set. The tables of the ledger are functions of the log and of the table without
its later duplicates, here called the base.
-/

namespace AlienConnection.Subscription

open Database Library

def Listed (offered : List Profile) (key : Option String × String) : Prop :=
  ∃ profile ∈ offered, profile.subscriptionKey = key

theorem listed_append {first second : List Profile} {key : Option String × String} :
    Listed (first ++ second) key ↔ Listed first key ∨ Listed second key := by
  simp [Listed, or_and_right, exists_or]

theorem listed_singleton {profile : Profile} {key : Option String × String} :
    Listed [profile] key ↔ profile.subscriptionKey = key := by
  simp [Listed]

/-- What an offer means to a row: its key, and the columns that are taken over. -/
structure Offer where
  key : Option String × String
  password : String
  method : String
  plugin : Option String
  deriving DecidableEq

def offerOf (it : Profile) : Offer where
  key := it.subscriptionKey
  password := it.password
  method := it.method
  plugin := it.plugin

structure Log where
  offered : List Profile := []
  created : List Profile := []
  links : List (Int × Int) := []

namespace Log

def first (log : Log) (key : Option String × String) : Option Profile :=
  log.offered.find? (fun it => decide (it.subscriptionKey = key))

/-- A profile of the base as it will be at the end. -/
def current (log : Log) (row : Profile) : Profile :=
  if managed row = true then
    match log.first row.subscriptionKey with
    | some it => { takeOver row it with udpFallback := LinkedMap.get row.id log.links }
    | none => retire row
  else row

/-- A profile of the base as it is stored now: only a link writes it early. -/
def onDisk (log : Log) (row : Profile) : Profile :=
  if (LinkedMap.get row.id log.links).isSome = true then log.current row else row

def linked (log : Log) (row : Profile) : Profile :=
  { row with udpFallback := LinkedMap.get row.id log.links }

def finalRows (base : ProfileTable) (log : Log) : List Profile :=
  base.rows.map log.current ++ log.created.map log.linked

def storedRows (base : ProfileTable) (log : Log) : List Profile :=
  base.rows.map log.onDisk ++ log.created.map log.linked

def orderAfter (rows : List Profile) : Int :=
  ((rows.map Profile.userOrder).max?.map (· + 1)).getD 0

def newcomer (log : Log) (key : Option String × String) : Option Profile :=
  log.created.find? (fun row => decide (row.subscriptionKey = key))

def newRow (base : ProfileTable) (log : Log) (it : Profile) : Profile :=
  { it with
    id := base.sequence + log.created.length + 1
    userOrder := orderAfter (base.rows ++ log.created)
    subscription := .active }

def offer (base : ProfileTable) (log : Log) (it : Profile) : Int × Log :=
  match (holder base it.subscriptionKey).or (log.newcomer it.subscriptionKey) with
  | some row => (row.id, { log with offered := log.offered ++ [it] })
  | none =>
      ((newRow base log it).id,
        { log with
          offered := log.offered ++ [it]
          created := log.created ++ [newRow base log it] })

def sink (base : ProfileTable) : ProfileSink Log where
  create := offer base
  getAllProfiles := storedRows base
  setFallback := fun log id target =>
    ({ log with links := LinkedMap.put id target log.links }, true)

def absorb (base : ProfileTable) (runtime : Runtime) (feature : Option Profile) (log : Log) :
    Option Json → Log
  | none => log
  | some json => (JsonParser.parseJson (sink base) runtime feature json log).1

def run (base : ProfileTable) (runtime : Runtime) (feature : Option Profile)
    (jsons : List (Option Json)) : Log :=
  jsons.foldl (absorb base runtime feature) {}

/-! ## Small facts -/

theorem first_isSome {log : Log} {key : Option String × String} :
    (log.first key).isSome = true ↔ Listed log.offered key := by
  simp [first, Listed]

theorem first_eq_none {log : Log} {key : Option String × String} :
    log.first key = none ↔ ¬ Listed log.offered key := by
  rw [← first_isSome, Option.not_isSome_iff_eq_none]

/-- A further offer matters only to its own key, and there only when it is the first. -/
theorem first_offered (log : Log) (it : Profile) (created : List Profile)
    (key : Option String × String) :
    ({ log with offered := log.offered ++ [it], created := created } : Log).first key =
      (log.first key).or (if it.subscriptionKey = key then some it else none) := by
  simp only [first, List.find?_append]
  by_cases same : it.subscriptionKey = key
  · simp [same]
  · simp [same]

theorem current_id (log : Log) (row : Profile) : (log.current row).id = row.id := by
  unfold current
  split
  · split
    · rfl
    · exact retire_id row
  · rfl

theorem sameRow_current (log : Log) (row : Profile) : SameRow row (log.current row) := by
  unfold current
  split
  next isManaged =>
    split
    next it _ => exact ⟨rfl, by rw [isManaged]; rfl⟩
    next => exact SameRow.retire row
  next => exact SameRow.refl row

theorem sameRow_onDisk (log : Log) (row : Profile) : SameRow row (log.onDisk row) := by
  unfold onDisk
  split
  · exact sameRow_current log row
  · exact SameRow.refl row

theorem current_user (log : Log) {row : Profile} (user : managed row = false) :
    log.current row = row := by
  rw [current, if_neg (by rw [user]; exact Bool.false_ne_true)]

/-- The status a document leaves. -/
theorem current_active_iff (log : Log) {row : Profile} (isManaged : managed row = true) :
    (log.current row).subscription = .active ↔ Listed log.offered row.subscriptionKey := by
  rw [← first_isSome, current, if_pos isManaged]
  cases log.first row.subscriptionKey with
  | none => simpa using not_active_retire row
  | some it => simp [takeOver]

/-- What an offer can do. -/
theorem offer_cases (base : ProfileTable) (log : Log) (it : Profile) :
    (∃ row, holder base it.subscriptionKey = some row ∧
      offer base log it = (row.id, { log with offered := log.offered ++ [it] })) ∨
    (holder base it.subscriptionKey = none ∧ ∃ row, log.newcomer it.subscriptionKey = some row ∧
      offer base log it = (row.id, { log with offered := log.offered ++ [it] })) ∨
    (holder base it.subscriptionKey = none ∧ log.newcomer it.subscriptionKey = none ∧
      offer base log it = ((newRow base log it).id,
        { log with
          offered := log.offered ++ [it]
          created := log.created ++ [newRow base log it] })) := by
  unfold offer
  cases held : holder base it.subscriptionKey with
  | some row => exact Or.inl ⟨row, rfl, rfl⟩
  | none =>
      cases found : log.newcomer it.subscriptionKey with
      | some row => exact Or.inr (Or.inl ⟨rfl, row, rfl, rfl⟩)
      | none => exact Or.inr (Or.inr ⟨rfl, rfl, rfl⟩)

theorem offered_offer (base : ProfileTable) (log : Log) (it : Profile) :
    (offer base log it).2.offered = log.offered ++ [it] := by
  rcases offer_cases base log it with ⟨_, _, result⟩ | ⟨_, _, _, result⟩ | ⟨_, _, result⟩
  · rw [result]
  · rw [result]
  · rw [result]

theorem newcomer_mem {log : Log} {key : Option String × String} {row : Profile}
    (found : log.newcomer key = some row) : row ∈ log.created ∧ row.subscriptionKey = key := by
  have matched := List.find?_some found
  exact ⟨List.mem_of_find?_eq_some found, of_decide_eq_true matched⟩

theorem newcomer_eq_none {log : Log} {key : Option String × String}
    (missing : log.newcomer key = none) {row : Profile} (member : row ∈ log.created) :
    row.subscriptionKey ≠ key := by
  intro same
  exact List.find?_eq_none.mp missing row member (decide_eq_true same)

/-! ## What the lists know of each other -/

def Known (base : ProfileTable) (log : Log) (id : Int) : Prop :=
  (∃ row ∈ base.rows, managed row = true ∧ Listed log.offered row.subscriptionKey ∧ row.id = id) ∨
    ∃ row ∈ log.created, row.id = id

structure Sound (base : ProfileTable) (log : Log) : Prop where
  vacant : ∀ row ∈ log.created, holder base row.subscriptionKey = none
  active : ∀ row ∈ log.created, row.subscription = .active
  listed : ∀ row ∈ log.created, Listed log.offered row.subscriptionKey
  numbered : ∀ row ∈ log.created,
    base.sequence < row.id ∧ row.id ≤ base.sequence + log.created.length
  distinct : log.created.Pairwise (fun row other => row.subscriptionKey ≠ other.subscriptionKey)
  covered : ∀ it ∈ log.offered, (holder base it.subscriptionKey).isSome = true ∨
    Listed log.created it.subscriptionKey
  firsts : ∀ row ∈ log.created,
    ∃ it, log.first row.subscriptionKey = some it ∧ offerOf it = offerOf row
  known : ∀ id, (LinkedMap.get id log.links).isSome = true → Known base log id

theorem sound_empty (base : ProfileTable) : Sound base {} where
  vacant := fun _ none => nomatch none
  active := fun _ none => nomatch none
  listed := fun _ none => nomatch none
  numbered := fun _ none => nomatch none
  distinct := List.Pairwise.nil
  covered := fun _ none => nomatch none
  firsts := fun _ none => nomatch none
  known := fun _ none => nomatch none

variable {base : ProfileTable} {log : Log}

/-- More offers and more rows keep an id known. -/
theorem Known.mono {id : Int} (known : Known base log id) (offered created : List Profile)
    (links : List (Int × Int)) :
    Known base { offered := log.offered ++ offered, created := log.created ++ created,
                 links := links } id := by
  rcases known with ⟨row, member, isManaged, listed, same⟩ | ⟨row, member, same⟩
  · exact Or.inl ⟨row, member, isManaged, listed_append.mpr (Or.inl listed), same⟩
  · exact Or.inr ⟨row, List.mem_append_left _ member, same⟩

/-- Offering under a key that has a row. -/
theorem Sound.again (sound : Sound base log) {it : Profile}
    (present : (holder base it.subscriptionKey).isSome = true ∨
      Listed log.created it.subscriptionKey) :
    Sound base { log with offered := log.offered ++ [it] } where
  vacant := sound.vacant
  active := sound.active
  listed := fun row member => listed_append.mpr (Or.inl (sound.listed row member))
  numbered := sound.numbered
  distinct := sound.distinct
  covered := by
    intro other member
    rcases List.mem_append.mp member with before | here
    · exact sound.covered other before
    · rw [List.mem_singleton.mp here]
      exact present
  firsts := by
    intro row member
    obtain ⟨first, isFirst, alike⟩ := sound.firsts row member
    refine ⟨first, ?_, alike⟩
    rw [first_offered log it log.created, isFirst, Option.some_or]
  known := by
    intro id isLinked
    have grown := (sound.known id isLinked).mono [it] [] log.links
    rw [List.append_nil] at grown
    exact grown

/-- Offering under a new key. -/
theorem Sound.grow (sound : Sound base log) {it : Profile}
    (missing : holder base it.subscriptionKey = none)
    (absent : log.newcomer it.subscriptionKey = none) :
    Sound base { log with
      offered := log.offered ++ [it], created := log.created ++ [newRow base log it] } := by
  have mem : ∀ {row}, row ∈ log.created ++ [newRow base log it] ↔
      row ∈ log.created ∨ row = newRow base log it := by
    intro row
    rw [List.mem_append, List.mem_singleton]
  constructor
  case vacant =>
    intro row member
    rcases mem.mp member with before | here
    · exact sound.vacant row before
    · rw [here]
      exact missing
  case active =>
    intro row member
    rcases mem.mp member with before | here
    · exact sound.active row before
    · rw [here]
      rfl
  case listed =>
    intro row member
    rw [listed_append, listed_singleton]
    rcases mem.mp member with before | here
    · exact Or.inl (sound.listed row before)
    · rw [here]
      exact Or.inr rfl
  case numbered =>
    intro row member
    rw [List.length_append, List.length_singleton]
    rcases mem.mp member with before | here
    · have bounds := sound.numbered row before
      omega
    · rw [here]
      simp only [newRow]
      omega
  case distinct =>
    rw [List.pairwise_append]
    refine ⟨sound.distinct, List.pairwise_singleton _ _, ?_⟩
    intro row member other otherMember
    rw [List.mem_singleton.mp otherMember]
    exact newcomer_eq_none absent member
  case covered =>
    intro other member
    rw [listed_append, listed_singleton]
    rcases List.mem_append.mp member with before | here
    · exact (sound.covered other before).imp_right Or.inl
    · rw [List.mem_singleton.mp here]
      exact Or.inr (Or.inr rfl)
  case firsts =>
    intro row member
    rw [first_offered]
    rcases mem.mp member with before | here
    · obtain ⟨first, isFirst, alike⟩ := sound.firsts row before
      exact ⟨first, by rw [isFirst, Option.some_or], alike⟩
    · have unlisted : log.first it.subscriptionKey = none := by
        rw [first_eq_none]
        rintro ⟨other, otherMember, sameKey⟩
        rcases sound.covered other otherMember with held | ⟨newcomer, inside, newKey⟩
        · rw [sameKey, missing] at held
          cases held
        · exact newcomer_eq_none absent inside (newKey.trans sameKey)
      rw [here]
      refine ⟨it, ?_, rfl⟩
      have sameKey : (newRow base log it).subscriptionKey = it.subscriptionKey := rfl
      rw [sameKey, unlisted, Option.none_or, if_pos rfl]
  case known =>
    intro id isLinked
    exact (sound.known id isLinked).mono _ _ log.links

theorem Sound.offer (sound : Sound base log) (it : Profile) :
    Sound base (Log.offer base log it).2 ∧
      Known base (Log.offer base log it).2 (Log.offer base log it).1 ∧
      ∀ id, Known base log id → Known base (Log.offer base log it).2 id := by
  have growing : ∀ created id, Known base log id →
      Known base { log with offered := log.offered ++ [it],
                            created := log.created ++ created } id :=
    fun created id known => known.mono [it] created log.links
  have staying := growing []
  rw [List.append_nil] at staying
  rcases offer_cases base log it with ⟨row, held, result⟩ | ⟨_, row, found, result⟩ |
    ⟨missing, absent, result⟩
  · rw [result]
    obtain ⟨member, isManaged, sameKey⟩ := holder_mem held
    refine ⟨sound.again (Or.inl (by rw [held]; rfl)), Or.inl ⟨row, member, isManaged, ?_, rfl⟩,
      staying⟩
    exact listed_append.mpr (Or.inr (listed_singleton.mpr sameKey.symm))
  · rw [result]
    obtain ⟨member, sameKey⟩ := newcomer_mem found
    exact ⟨sound.again (Or.inr ⟨row, member, sameKey⟩), Or.inr ⟨row, member, rfl⟩, staying⟩
  · rw [result]
    exact ⟨sound.grow missing absent,
      Or.inr ⟨_, List.mem_append_right _ List.mem_cons_self, rfl⟩, growing _⟩

theorem Sound.link (sound : Sound base log) {id target : Int} (isKnown : Known base log id) :
    Sound base { log with links := LinkedMap.put id target log.links } where
  vacant := sound.vacant
  active := sound.active
  listed := sound.listed
  numbered := sound.numbered
  distinct := sound.distinct
  covered := sound.covered
  firsts := sound.firsts
  known := by
    intro other isLinked
    by_cases same : other = id
    · rw [same]
      exact isKnown
    · rw [LinkedMap.get_put_other same] at isLinked
      exact sound.known other isLinked

/-- The first list holds exactly what was offered, and the lists stay sound. -/
theorem keeps_sound (base : ProfileTable) :
    JsonParser.Keeps (sink base) (fun offered log => log.offered = offered ∧ Sound base log)
      (Known base) where
  create := by
    rintro offered log it _ ⟨same, sound⟩
    obtain ⟨next, answered, kept⟩ := sound.offer it
    refine ⟨⟨?_, next⟩, answered, kept⟩
    rw [← same]
    exact offered_offer base log it
  setFallback := by
    rintro offered log id target ⟨same, sound⟩ isKnown
    exact ⟨rfl, ⟨same, sound.link isKnown⟩, fun _ known => known⟩

end Log

end AlienConnection.Subscription
