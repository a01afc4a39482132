/-
**What a login names.**

A login is looked up in several ways, one after the other; the user name comes first. What a pool
keeps unique is the user name (up to ASCII case, unless it is case-sensitive), the `sub`, and the
email address (up to ASCII case) where it is the user name. Aliases and telephone numbers are not.

* `Logins` — the invariant: users of a pool are apart in what the pool keeps unique.
* `Logins.write`, `Logins.run` — every write but a change of the pool's settings keeps it.
* `login_names` — in every run: a user name, and an email address that serves as one, resolves to
  its user.
* `alias_captured` — an alias that resolves to one user, and then to another.
-/

import CloudTwin.Cognito.Users
import CloudTwin.Lib.Table
import Mathlib.Data.List.Pairwise

namespace CloudTwin.Cognito

open Lib Lib.Text

set_option linter.unusedSectionVars false

/-- **What is assumed of `Uuid::new_v4()`**: the text of a UUID has no capital letters. -/
structure UuidLower (external : External) : Prop where
  lower : ∀ draw, toAsciiLowercase (external.uuid draw) = external.uuid draw

section External

variable [External] [Crypto]

/-! ### Users that are apart -/

/-- `username = ?2`, with `COLLATE NOCASE` unless the pool is case-sensitive. -/
def SameName (pool : Pool) (first second : String) : Prop :=
  if pool.caseSensitive then first = second else eqIgnoreAsciiCase first second = true

instance (pool : Pool) (first second : String) : Decidable (SameName pool first second) :=
  inferInstanceAs (Decidable (if pool.caseSensitive then first = second
    else eqIgnoreAsciiCase first second = true))

/-- The email address of the first is that of the second, up to ASCII case. -/
def SameEmail (first second : User) : Prop :=
  ∃ email, first.attributes["email"]? = some email ∧
    matchesIgnoringCase second.attributes["email"]? email = true

/-- **Two users of a pool are apart.** -/
structure Apart (pool : Pool) (first second : User) : Prop where
  names : ¬ SameName pool first.username second.username
  subs : first.sub ≠ second.sub
  emails : pool.emailIsUsername = true → ¬ SameEmail first second

theorem eqIgnoreAsciiCase_iff {first second : String} :
    eqIgnoreAsciiCase first second = true ↔ toAsciiLowercase first = toAsciiLowercase second :=
  beq_iff_eq

theorem SameName.refl (pool : Pool) (name : String) : SameName pool name name := by
  unfold SameName
  split
  · rfl
  · exact eqIgnoreAsciiCase_iff.mpr rfl

theorem SameName.symm {pool : Pool} {first second : String} (same : SameName pool first second) :
    SameName pool second first := by
  unfold SameName at same ⊢
  split at same
  · rename_i sensitive
    rw [if_pos sensitive]
    exact same.symm
  · rename_i insensitive
    rw [if_neg insensitive, eqIgnoreAsciiCase_iff]
    exact (eqIgnoreAsciiCase_iff.mp same).symm

theorem SameName.trans {pool : Pool} {first second third : String}
    (one : SameName pool first second) (two : SameName pool second third) :
    SameName pool first third := by
  unfold SameName at one two ⊢
  split at one
  · rename_i sensitive
    rw [if_pos sensitive] at two ⊢
    exact one.trans two
  · rename_i insensitive
    rw [if_neg insensitive, eqIgnoreAsciiCase_iff] at two ⊢
    exact (eqIgnoreAsciiCase_iff.mp one).trans two

theorem matchesIgnoringCase_some {value login : String} :
    matchesIgnoringCase (some value) login = true ↔
      toAsciiLowercase value = toAsciiLowercase login := by
  unfold matchesIgnoringCase
  rw [Option.any_some, beq_iff_eq]

theorem SameEmail.symm {first second : User} (same : SameEmail first second) :
    SameEmail second first := by
  obtain ⟨email, given, found⟩ := same
  cases other : second.attributes["email"]? with
  | none =>
    rw [other] at found
    cases found
  | some value =>
    rw [other, matchesIgnoringCase_some] at found
    refine ⟨value, other, ?_⟩
    rw [given, matchesIgnoringCase_some]
    exact found.symm

theorem Apart.symm {pool : Pool} {first second : User} (apart : Apart pool first second) :
    Apart pool second first :=
  ⟨fun same => apart.names same.symm, apart.subs.symm,
    fun isUsername same => apart.emails isUsername same.symm⟩

/-- **What a store keeps unique.** -/
structure Logins (store : Store) : Prop where
  owned : ∀ user ∈ store.users, ∃ pool, findPool store user.poolId = some pool
  drawn : ∀ user ∈ store.users, DrawnUuid 0 store.drawn user.sub
  named : ∀ pool, findPool store pool.id = some pool → pool.usernameAttributes.isEmpty = false →
    ∀ user ∈ store.users, user.poolId = pool.id → user.username = user.sub
  apart : ∀ pool, findPool store pool.id = some pool →
    store.users.Pairwise fun first second =>
      first.poolId = pool.id → second.poolId = pool.id → Apart pool first second

theorem Logins.empty : Logins Store.empty :=
  ⟨nofun, nofun, nofun, nofun⟩

/-- Two users of a pool that are not one are apart. -/
theorem Logins.apart_of_ne {store : Store} (logins : Logins store) {pool : Pool}
    (known : findPool store pool.id = some pool) {first second : User}
    (memberFirst : first ∈ store.users) (memberSecond : second ∈ store.users)
    (poolFirst : first.poolId = pool.id) (poolSecond : second.poolId = pool.id)
    (different : first ≠ second) : Apart pool first second := by
  have symmetric : Std.Symm fun first second : User =>
      first.poolId = pool.id → second.poolId = pool.id → Apart pool first second :=
    ⟨fun _ _ apart inSecond inFirst => (apart inFirst inSecond).symm⟩
  exact (logins.apart pool known).forall memberFirst memberSecond different poolFirst poolSecond

/-- A user name is that of one user. -/
theorem Logins.unique {store : Store} (logins : Logins store) {pool : Pool}
    (known : findPool store pool.id = some pool) {first second : User}
    (memberFirst : first ∈ store.users) (memberSecond : second ∈ store.users)
    (poolFirst : first.poolId = pool.id) (poolSecond : second.poolId = pool.id)
    (same : SameName pool first.username second.username) : first = second := by
  by_contra different
  exact (logins.apart_of_ne known memberFirst memberSecond poolFirst poolSecond different).names same

theorem Logins.key_unique {store : Store} (logins : Logins store) {first second : User}
    (memberFirst : first ∈ store.users) (memberSecond : second ∈ store.users)
    (is : first.Is second.poolId second.username) : first = second := by
  obtain ⟨pool, known⟩ := logins.owned second memberSecond
  have id := findPool_id known
  rw [← id] at known
  refine logins.unique known memberFirst memberSecond (is.1.trans id.symm) id.symm ?_
  rw [is.2]
  exact SameName.refl pool _

/-! ### What a login finds -/

theorem head_of_unique {α : Type} {rows : List α} {row : α} (member : row ∈ rows)
    (only : ∀ other ∈ rows, other = row) : rows.head? = some row := by
  cases rows with
  | nil => cases member
  | cons first rest => rw [List.head?_cons, only first List.mem_cons_self]

theorem queryUsers_none {store : Store} {poolId : String} {condition : User → Bool}
    (none : (queryUsers store poolId condition).head? = none) :
    ∀ user ∈ store.users, user.poolId = poolId → condition user = false := by
  intro user member inPool
  rw [List.head?_eq_none_iff] at none
  by_contra selected
  have found := queryUsers_mem.mpr ⟨member, inPool, by simpa using selected⟩
  rw [none] at found
  cases found

/-- The first way is by the user name. -/
theorem loginWays_eq (pool : Pool) (login : String) : ∃ rest,
    loginWays pool login = (fun user : User =>
      if pool.caseSensitive then user.username == login
      else eqIgnoreAsciiCase user.username login) :: rest ∧
    (pool.emailIsUsername = true → ∃ others, rest =
      (fun user : User => matchesIgnoringCase user.attributes["email"]? login) :: others) := by
  unfold loginWays
  simp only [List.append_assoc, List.cons_append, List.nil_append]
  refine ⟨_, rfl, fun isUsername => ?_⟩
  unfold Pool.emailIsUsername at isUsername
  rw [if_pos isUsername]
  exact ⟨_, rfl⟩

theorem byName_iff {pool : Pool} {user : User} {login : String} :
    (if pool.caseSensitive then user.username == login
      else eqIgnoreAsciiCase user.username login) = true ↔ SameName pool user.username login := by
  unfold SameName
  split
  · rw [beq_iff_eq]
  · rfl

theorem findUser_none {store : Store} {pool : Pool} {login : String}
    (missing : findUser store pool login = none) :
    ∀ user ∈ store.users, user.poolId = pool.id → ¬ SameName pool user.username login := by
  intro user member inPool same
  obtain ⟨rest, ways, _⟩ := loginWays_eq pool login
  unfold findUser at missing
  rw [ways, List.findSome?_cons] at missing
  split at missing
  · cases missing
  · rename_i none
    have selected := queryUsers_none none user member inPool
    rw [byName_iff.mpr same] at selected
    cases selected

theorem Logins.findUser_name {store : Store} (logins : Logins store) {pool : Pool}
    (known : findPool store pool.id = some pool) {user : User} (member : user ∈ store.users)
    (inPool : user.poolId = pool.id) {login : String} (same : SameName pool user.username login) :
    findUser store pool login = some user := by
  obtain ⟨rest, ways, _⟩ := loginWays_eq pool login
  unfold findUser
  rw [ways, List.findSome?_cons, @head_of_unique _ _ _ _ user]
  · exact queryUsers_mem.mpr ⟨member, inPool, byName_iff.mpr same⟩
  · intro other found
    obtain ⟨memberOther, inOther, selected⟩ := queryUsers_mem.mp found
    exact logins.unique known memberOther member inOther inPool
      ((byName_iff.mp selected).trans same.symm)

theorem Logins.findUser_email {store : Store} (logins : Logins store) {pool : Pool}
    (known : findPool store pool.id = some pool) (isUsername : pool.emailIsUsername = true)
    {user : User} (member : user ∈ store.users) (inPool : user.poolId = pool.id) {login : String}
    (same : matchesIgnoringCase user.attributes["email"]? login = true)
    (noName : ∀ other ∈ store.users, other.poolId = pool.id →
      ¬ SameName pool other.username login) : findUser store pool login = some user := by
  obtain ⟨rest, ways, second⟩ := loginWays_eq pool login
  obtain ⟨others, rfl⟩ := second isUsername
  have first : (queryUsers store pool.id fun user : User =>
      if pool.caseSensitive then user.username == login
      else eqIgnoreAsciiCase user.username login).head? = none := by
    rw [List.head?_eq_none_iff, List.eq_nil_iff_forall_not_mem]
    intro other found
    obtain ⟨memberOther, inOther, selected⟩ := queryUsers_mem.mp found
    exact noName other memberOther inOther (byName_iff.mp selected)
  unfold findUser
  rw [ways, List.findSome?_cons, first, List.findSome?_cons, @head_of_unique _ _ _ _ user]
  · exact queryUsers_mem.mpr ⟨member, inPool, same⟩
  · intro other found
    obtain ⟨memberOther, inOther, selected⟩ := queryUsers_mem.mp found
    by_contra different
    refine (logins.apart_of_ne known memberOther member inOther inPool different).emails isUsername ?_
    cases own : other.attributes["email"]? with
    | none =>
      rw [own] at selected
      cases selected
    | some email =>
      refine ⟨email, own, ?_⟩
      cases given : user.attributes["email"]? with
      | none =>
        rw [given] at same
        cases same
      | some value =>
        rw [own, matchesIgnoringCase_some] at selected
        rw [given, matchesIgnoringCase_some] at same
        rw [matchesIgnoringCase_some]
        exact same.trans selected.symm

/-! ### Writes -/

section Write

variable {store after : Store}

/-- Fewer users, and no pool that was not there. -/
theorem Logins.fewer (logins : Logins store) (users : after.users.Sublist store.users)
    (pools : ∀ user ∈ after.users, findPool after user.poolId = findPool store user.poolId)
    (drawn : store.drawn ≤ after.drawn) : Logins after := by
  have known : ∀ pool, findPool after pool.id = some pool → ∀ user ∈ after.users,
      user.poolId = pool.id → findPool store pool.id = some pool := by
    intro pool here user member inPool
    rw [← inPool] at here ⊢
    rwa [← pools user member]
  refine ⟨fun user member => ?_, fun user member => ?_, fun pool here isUsername user member inPool => ?_,
    fun pool here => ?_⟩
  · rw [pools user member]
    exact logins.owned user (users.subset member)
  · exact (logins.drawn user (users.subset member)).mono le_rfl drawn
  · exact logins.named pool (known pool here user member inPool) isUsername user
      (users.subset member) inPool
  · by_cases there : findPool store pool.id = some pool
    · exact (logins.apart pool there).sublist users
    · refine List.pairwise_of_forall_mem_list fun first member second _ inPool => ?_
      exact absurd (known pool here first member inPool) there

theorem Logins.other (logins : Logins store) (users : after.users = store.users)
    (pools : after.pools = store.pools) (drawn : store.drawn ≤ after.drawn) : Logins after := by
  refine logins.fewer (by rw [users]) (fun user _ => ?_) drawn
  unfold findPool
  rw [pools]

theorem Logins.poolCreated (logins : Logins store) {name : String} {data : Json} {pool : Pool}
    (done : createPool store name data = .ok (pool, after)) : Logins after := by
  obtain ⟨_, _, rest⟩ := bind_ok done
  obtain ⟨_, _, rest⟩ := bind_ok rest
  obtain ⟨_, absent, rest⟩ := bind_ok rest
  rw [rejectIf_ok, Bool.not_eq_true, Option.isSome_eq_false_iff, Option.isNone_iff_eq_none] at absent
  cases rest
  refine logins.fewer (List.Sublist.refl _) (fun user member => ?_) (Nat.le_succ _)
  obtain ⟨owner, known⟩ := logins.owned user member
  rw [known]
  unfold findPool at known ⊢
  exact List.find?_append.trans (by rw [known, Option.some_or])

theorem Logins.poolDeleted (logins : Logins store) {id : String}
    (done : deletePool store id = .ok after) : Logins after := by
  obtain ⟨_, _, rest⟩ := bind_ok done
  obtain ⟨_, _, rest⟩ := bind_ok rest
  cases rest
  refine logins.fewer List.filter_sublist (fun user member => ?_) le_rfl
  have other := (List.mem_filter.mp member).2
  unfold findPool
  refine find_filter_same fun pool _ selected => ?_
  rw [beq_iff_eq] at selected
  rwa [selected]

theorem Logins.userDeleted (logins : Logins store) (user : User) :
    Logins (deleteUser store user) :=
  logins.fewer List.filter_sublist (fun _ _ => rfl) le_rfl

/-- An address that is not taken is that of no other user. -/
theorem emailTaken_false {poolId email : String} {except : Option String}
    (free : emailTaken store poolId email except = false) : ∀ user ∈ store.users,
      user.poolId = poolId → matchesIgnoringCase user.attributes["email"]? email = true →
      some user.username = except := by
  intro user member inPool same
  unfold emailTaken at free
  rw [List.any_eq_false] at free
  have here := free user (queryUsers_mem.mpr ⟨member, inPool, same⟩)
  simpa using here

/-- **A user is saved**, with the email address it had, or with one that no other user has. -/
theorem Logins.saved (logins : Logins store) {user changed : User} (member : user ∈ store.users)
    (same : SameUser user changed)
    (email : ∀ email, changed.attributes["email"]? = some email →
      user.attributes["email"]? = some email ∨
      ∀ pool, findPool store pool.id = some pool → user.poolId = pool.id →
        pool.emailIsUsername = true →
        emailTaken store pool.id email (some user.username) = false) :
    Logins (saveUser store changed) := by
  classical
  have rows : ∀ row ∈ store.users,
      (if row.Is changed.poolId changed.username then
        { row with
          attributes := changed.attributes, passwordHash := changed.passwordHash
          passwordSalt := changed.passwordSalt, status := changed.status
          enabled := changed.enabled, tokensValidAfter := changed.tokensValidAfter }
      else row) = if row = user then changed else row := by
    intro row memberRow
    by_cases is : row.Is changed.poolId changed.username
    · rw [if_pos is]
      rw [same.poolId, same.username] at is
      have own := logins.key_unique memberRow member is
      rw [if_pos own, own, ← same.poolId, ← same.username, ← same.sub, ← same.created]
    · rw [if_neg is, if_neg]
      rintro rfl
      exact is ⟨same.poolId.symm, same.username.symm⟩
  have users : (saveUser store changed).users =
      store.users.map fun row => if row = user then changed else row :=
    List.map_congr_left rows
  have apart : ∀ pool, findPool store pool.id = some pool → ∀ other ∈ store.users,
      other ≠ user → user.poolId = pool.id → other.poolId = pool.id → Apart pool changed other := by
    intro pool known other memberOther different inPool inOther
    have before := logins.apart_of_ne known member memberOther inPool inOther different.symm
    refine ⟨same.username ▸ before.names, same.sub ▸ before.subs, fun isUsername sameEmail => ?_⟩
    obtain ⟨address, given, found⟩ := sameEmail
    rcases email address given with own | free
    · exact before.emails isUsername ⟨address, own, found⟩
    · have taken := emailTaken_false (free pool known inPool isUsername) other memberOther inOther
        found
      refine different (logins.unique known memberOther member inOther inPool ?_)
      rw [Option.some.inj taken]
      exact SameName.refl pool _
  refine ⟨fun row memberRow => ?_, fun row memberRow => ?_,
    fun pool known isUsername row memberRow inPool => ?_, fun pool known => ?_⟩
  · rw [users] at memberRow
    obtain ⟨old, memberOld, rfl⟩ := List.mem_map.mp memberRow
    by_cases own : old = user
    · rw [if_pos own, same.poolId]
      exact logins.owned user member
    · rw [if_neg own]
      exact logins.owned old memberOld
  · rw [users] at memberRow
    obtain ⟨old, memberOld, rfl⟩ := List.mem_map.mp memberRow
    by_cases own : old = user
    · rw [if_pos own, same.sub]
      exact logins.drawn user member
    · rw [if_neg own]
      exact logins.drawn old memberOld
  · rw [users] at memberRow
    obtain ⟨old, memberOld, rfl⟩ := List.mem_map.mp memberRow
    by_cases own : old = user
    · rw [if_pos own] at inPool ⊢
      rw [same.username, same.sub]
      exact logins.named pool known isUsername user member (same.poolId.symm.trans inPool)
    · rw [if_neg own] at inPool ⊢
      exact logins.named pool known isUsername old memberOld inPool
  · rw [users, List.pairwise_map]
    refine (logins.apart pool known).imp_of_mem
      fun {first second} memberFirst memberSecond before inFirst inSecond => ?_
    by_cases ownFirst : first = user
    · rw [if_pos ownFirst] at inFirst ⊢
      have inUser := same.poolId.symm.trans inFirst
      by_cases ownSecond : second = user
      · rw [ownFirst, ownSecond] at before
        exact absurd (SameName.refl pool _) (before inUser inUser).names
      · rw [if_neg ownSecond] at inSecond ⊢
        exact apart pool known second memberSecond ownSecond inUser inSecond
    · rw [if_neg ownFirst] at inFirst ⊢
      by_cases ownSecond : second = user
      · rw [if_pos ownSecond] at inSecond ⊢
        exact (apart pool known first memberFirst ownFirst (same.poolId.symm.trans inSecond)
          inFirst).symm
      · rw [if_neg ownSecond] at inSecond ⊢
        exact before inFirst inSecond

theorem uuid_apart (uuids : UuidLaws ‹External›) (lower : UuidLower ‹External›) {pool : Pool}
    {name : String} {draw : Nat} (drawn : DrawnUuid 0 draw name) :
    ¬ SameName pool name (External.uuid draw) := by
  obtain ⟨earlier, _, before, rfl⟩ := drawn
  intro same
  have equal : External.uuid earlier = External.uuid draw := by
    unfold SameName at same
    split at same
    · exact same
    · rw [eqIgnoreAsciiCase_iff, lower.lower, lower.lower] at same
      exact same
  have := uuids.fresh equal
  omega

/-- The name of a new user is the login, or the `sub`. -/
theorem newIdentity_name {pool : Pool} {login sub username : String} {given attributes : Attributes}
    (identity : newIdentity pool login sub given = .ok (username, attributes)) :
    (pool.usernameAttributes.isEmpty = true ∧ username = login) ∨
      (pool.usernameAttributes.isEmpty = false ∧ username = sub) := by
  unfold newIdentity at identity
  simp only at identity
  split at identity
  · rename_i none
    split at identity
    · cases identity
    · cases identity
      exact Or.inl ⟨none, rfl⟩
  · rename_i some
    rw [Bool.not_eq_true] at some
    split at identity
    · cases identity
      exact Or.inr ⟨some, rfl⟩
    · split at identity
      · cases identity
        exact Or.inr ⟨some, rfl⟩
      · cases identity

/-- **A new user is apart from all others.** -/
theorem Logins.userCreated (logins : Logins store) (uuids : UuidLaws ‹External›)
    (lower : UuidLower ‹External›) {pool : Pool} {req : NewUser} {user : User} {now : Int}
    (known : findPool store pool.id = some pool)
    (done : createUser store pool req now = .ok (user, after)) : Logins after := by
  obtain ⟨username, attributes, identity, ⟨noLogin, _⟩, free, ⟨inPool, named, sub, given⟩, rfl⟩ :=
    createUser_ok done
  have kept : ∀ other ∈ store.users, DrawnUuid 0 (store.drawn + 2) other.sub :=
    fun other member => (logins.drawn other member).mono le_rfl (Nat.le_add_right _ _)
  have apart : ∀ other ∈ store.users, other.poolId = pool.id → Apart pool other user := by
    intro other member inOther
    refine ⟨fun same => ?_, fun same => ?_, fun isUsername sameEmail => ?_⟩
    · rw [named] at same
      rcases newIdentity_name identity with ⟨_, rfl⟩ | ⟨byAttribute, rfl⟩
      · exact findUser_none noLogin other member inOther same
      · rw [logins.named pool known byAttribute other member inOther] at same
        exact uuid_apart uuids lower (logins.drawn other member) same
    · rw [sub] at same
      obtain ⟨draw, _, before, drawn⟩ := logins.drawn other member
      have equal := uuids.fresh (drawn.symm.trans same)
      omega
    · obtain ⟨email, address, found⟩ := sameEmail.symm
      rw [given] at address
      have taken := emailTaken_false (free isUsername email address) other member inOther found
      cases taken
  refine ⟨fun row member => ?_, fun row member => ?_, fun other here byAttribute row member inOther => ?_,
    fun other here => ?_⟩
  · rcases List.mem_append.mp member with old | new
    · exact logins.owned row old
    · rw [List.mem_singleton.mp new, inPool]
      exact ⟨pool, known⟩
  · rcases List.mem_append.mp member with old | new
    · exact kept row old
    · rw [List.mem_singleton.mp new, sub]
      refine ⟨store.drawn, Nat.zero_le _, ?_, rfl⟩
      exact Nat.lt_add_of_pos_right (Nat.succ_pos 1)
  · rcases List.mem_append.mp member with old | new
    · exact logins.named other here byAttribute row old inOther
    · rw [List.mem_singleton.mp new] at inOther ⊢
      have same : other = pool := by
        have found : findPool store pool.id = some other := by rwa [inPool.symm.trans inOther]
        exact Option.some.inj (found.symm.trans known)
      rw [same] at byAttribute
      rcases newIdentity_name identity with ⟨none, _⟩ | ⟨_, rfl⟩
      · rw [none] at byAttribute
        cases byAttribute
      · exact named.trans sub.symm
  · refine List.pairwise_append.mpr ⟨logins.apart other here, List.pairwise_singleton _ _, ?_⟩
    intro row member new isNew inRow inNew
    rw [List.mem_singleton.mp isNew] at inNew ⊢
    have same : other = pool := by
      have found : findPool store pool.id = some other := by rwa [inPool.symm.trans inNew]
      exact Option.some.inj (found.symm.trans known)
    rw [same] at inRow ⊢
    exact apart row member inRow

/-- An update leaves the email address, or sets one that is not taken. -/
theorem updateAttribute_email {pool : Pool} {username : String} {names : List String}
    {attributes changed : Attributes} {name value email : String}
    (done : updateAttribute store pool username names attributes name value = .ok changed)
    (given : changed["email"]? = some email) :
    attributes["email"]? = some email ∨
      (pool.emailIsUsername = true → emailTaken store pool.id email (some username) = false) := by
  obtain ⟨_, _, rest⟩ := bind_ok done
  obtain ⟨_, free, rest⟩ := bind_ok rest
  rw [rejectIf_ok] at free
  have stored := Except.ok.inj rest
  rw [← stored, getElem_insert] at given
  by_cases isEmail : name = "email"
  · rw [if_pos isEmail, Option.some.injEq] at given
    refine Or.inr fun isUsername => ?_
    rw [← given]
    by_contra taken
    exact free ⟨isEmail, isUsername, by simpa using taken⟩
  · rw [if_neg isEmail] at given
    simp only [isEmail, false_and, if_false] at given
    left
    split at given
    · rwa [getElem_insert, if_neg (by decide)] at given
    · exact given

theorem updateEach_email {pool : Pool} {username : String} {names : List String}
    (entries : List (String × String)) {attributes changed : Attributes} {email : String}
    (done : updateEach store pool username names entries attributes = .ok changed)
    (given : changed["email"]? = some email) :
    attributes["email"]? = some email ∨
      (pool.emailIsUsername = true → emailTaken store pool.id email (some username) = false) := by
  induction entries generalizing attributes with
  | nil =>
    cases done
    exact Or.inl given
  | cons entry rest ih =>
    obtain ⟨next, first, later⟩ := bind_ok done
    rcases ih later with here | free
    · exact updateAttribute_email first here
    · exact Or.inr free

theorem erase_get (names : List String) (attributes : Attributes) {name value : String}
    (given : (names.foldl (fun attributes name => attributes.erase name) attributes)[name]? =
      some value) : attributes[name]? = some value := by
  induction names generalizing attributes with
  | nil => exact given
  | cons first rest ih =>
    have here := ih _ given
    rw [getElem_erase] at here
    split at here
    · cases here
    · exact here

/-- **Every write but a change of the pool's settings keeps what is unique.** -/
theorem Logins.write (logins : Logins store) (uuids : UuidLaws ‹External›)
    (lower : UuidLower ‹External›) {input : Input} (write : Write input store after)
    (settled : ∀ poolId updates, input.tx ≠ .updateUserPool poolId updates) : Logins after := by
  cases write with
  | other users pools codes drawn => exact logins.other users pools drawn
  | poolCreated done => exact logins.poolCreated done
  | poolUpdated tx done => exact absurd tx (settled _ _)
  | poolDeleted done => exact logins.poolDeleted done
  | userCreated known done tx => exact logins.userCreated uuids lower known done
  | userDeleted user => exact logins.userDeleted user
  | profile member same attributes =>
    exact logins.saved member same fun email given => Or.inl (attributes ▸ given)
  | @updated _ pool user changed attributes known done tx =>
    obtain ⟨each, updates, rest⟩ := bind_ok done
    cases rest
    refine logins.saved known.member ⟨rfl, rfl, rfl, rfl⟩ fun email given => ?_
    refine (updateEach_email attributes updates given).imp_right fun free other here inPool => ?_
    have same : pool = other := by
      rw [known.inPool] at inPool
      exact Option.some.inj (known.stored.symm.trans (by rwa [inPool]))
    rw [← same]
    exact free
  | erased member names =>
    exact logins.saved member ⟨rfl, rfl, rfl, rfl⟩ fun email given => Or.inl (erase_get _ _ given)
  | confirmed member pool tx =>
    refine logins.saved member ⟨rfl, rfl, rfl, rfl⟩ fun email given => Or.inl ?_
    unfold confirmedAttributes at given
    split at given
    · rwa [getElem_insert, if_neg (by decide)] at given
    · exact given
  | reset member tx =>
    refine logins.saved member ⟨rfl, rfl, rfl, rfl⟩ fun email given => Or.inl ?_
    unfold resetAttributes at given
    split at given
    · rwa [getElem_insert, if_neg (by decide)] at given
    · exact given
  | codeSent user tx => exact logins.other rfl rfl (Nat.le_succ _)
  | codeTaken done =>
    obtain ⟨_, rfl⟩ := checkCode_ok done
    exact logins.other rfl rfl le_rfl

end Write

/-! ### Every run -/

/-- What is unique is unique in every run that leaves the settings of the pools as they are. -/
theorem Logins.run (uuids : UuidLaws ‹External›) (lower : UuidLower ‹External›) {ctx : Ctx}
    {history : List CognitoEvent} {store : Store}
    (run : Run (perform ctx) Store.empty history store)
    (settled : ∀ event ∈ history, ∀ poolId updates,
      event.input.tx ≠ .updateUserPool poolId updates) : Logins store := by
  refine run.invariant_along Logins.empty fun event member taken logins => ?_
  exact (perform_writes taken).keeps
    (fun write kept => Logins.write kept uuids lower write (settled event member)) logins

/-- **What a login names.** In every run that leaves the settings of the pools as they are, in every
pool: no two users have the same name (up to ASCII case, unless the pool is case-sensitive), the
same `sub`, or, where the email address is the user name, the same address up to ASCII case; a user
name resolves to its user; and so does, where it is the user name, an email address that is not
itself the name of a user. -/
theorem login_names (uuids : UuidLaws ‹External›) (lower : UuidLower ‹External›) {ctx : Ctx}
    {history : List CognitoEvent} {store : Store} (served : CognitoRun ctx history store)
    (settled : ∀ event ∈ history, ∀ poolId updates,
      event.input.tx ≠ .updateUserPool poolId updates)
    (pool : Pool) (known : findPool store pool.id = some pool) :
    (store.users.filter fun user => user.poolId == pool.id).Pairwise (Apart pool) ∧
    ∀ user ∈ store.users, user.poolId = pool.id → ∀ login,
      (SameName pool user.username login → findUser store pool login = some user) ∧
      (pool.emailIsUsername = true →
        matchesIgnoringCase user.attributes["email"]? login = true →
        (∀ other ∈ store.users, other.poolId = pool.id → ¬ SameName pool other.username login) →
        findUser store pool login = some user) := by
  have logins := Logins.run uuids lower served.run settled
  refine ⟨?_, fun user member inPool login => ⟨fun same => ?_, fun isUsername same noName => ?_⟩⟩
  · rw [List.pairwise_filter]
    refine (logins.apart pool known).imp fun apart inFirst inSecond => ?_
    rw [beq_iff_eq] at inFirst inSecond
    exact apart inFirst inSecond
  · exact logins.findUser_name known member inPool same
  · exact logins.findUser_email known isUsername member inPool same noName

end External

/-! ### An alias -/

section Sample

attribute [local instance] sampleExternal Crypto.sample

theorem sample_lower : UuidLower sampleExternal where
  lower draw := by
    have digits : ∀ char ∈ (External.uuid draw).toList, char.toLower = char := by
      intro char member
      have text : (External.uuid draw).toList =
          "00000000-0000-4000-8000-".toList ++ (decimal 12 draw).toList := String.toList_append
      rw [text, List.mem_append] at member
      rcases member with fixed | digit
      · have lower : ("00000000-0000-4000-8000-".toList.all fun char => char.toLower == char) = true := by
          decide
        exact beq_iff_eq.mp (List.all_eq_true.mp lower char fixed)
      · have isDigit := decimal_isDigit 12 draw char digit
        rw [Char.isDigit, Bool.and_eq_true, decide_eq_true_eq, decide_eq_true_eq] at isDigit
        unfold Char.toLower
        rw [dif_neg]
        rintro ⟨least, _⟩
        exact absurd (UInt32.le_trans least isDigit.2) (by decide)
    unfold toAsciiLowercase
    rw [List.map_congr_left digits, List.map_id', String.ofList_toList]

/-- A pool whose users sign in with an email alias, and two users in it: the second has a verified
address. -/
def sampleAliases : List Tx :=
  [.createUserPool "pool" (.obj [("AliasAttributes", .arr [.str "email"])]),
    .adminCreateUser samplePoolId "first" [] (some "Temporary-1") (some "SUPPRESS") false,
    .adminCreateUser samplePoolId "second" [("email", "dev@example.com"), ("email_verified", "true")]
      (some "Temporary-1") (some "SUPPRESS") false]

/-- The first user gets the address of the second. -/
def sampleCapture : Tx :=
  .adminUpdateUserAttributes samplePoolId "first"
    [("email", "dev@example.com"), ("email_verified", "true")]

/-- The user name that the login resolves to. -/
def sampleNamed (past : List Tx) (login : String) : Option String :=
  ((findPool (sampleStore past) samplePoolId).bind fun pool =>
    findUser (sampleStore past) pool login).map User.username

/-- **An alias is captured**: a login by a verified address resolves to the second user, and after
the first user was given the same address, to the first. -/
theorem alias_captured :
    sampleNamed sampleAliases "dev@example.com" = some "second" ∧
    sampleNamed (sampleAliases ++ [sampleCapture]) "dev@example.com" = some "first" ∧
    sampleNamed (sampleAliases ++ [sampleCapture]) "second" = some "second" := by
  refine ⟨?_, ?_, ?_⟩
  · decide
  · decide
  · decide

/-- A pool whose users sign in with their email addresses, and two users in it. -/
def sampleAddresses : List Tx :=
  [.createUserPool "pool" (.obj [("UsernameAttributes", .arr [.str "email"])]),
    .adminCreateUser samplePoolId "dev@example.com" [] (some "Temporary-1") (some "SUPPRESS") false,
    .adminCreateUser samplePoolId "ops@example.com" [] (some "Temporary-1") (some "SUPPRESS") false]

def sampleAddressPool : Pool where
  id := samplePoolId
  name := "pool"
  data := .obj [("UsernameAttributes", .arr [.str "email"]),
    ("UsernameConfiguration", .obj [("CaseSensitive", .bool false)])]

/-- The address of each user, in any case, resolves to the user. -/
theorem login_names_sample : ∃ first second,
    (sampleStore sampleAddresses).users = [first, second] ∧ Apart sampleAddressPool first second ∧
    findUser (sampleStore sampleAddresses) sampleAddressPool "DEV@example.com" = some first ∧
    findUser (sampleStore sampleAddresses) sampleAddressPool "ops@Example.com" = some second := by
  have uuids : UuidLaws sampleExternal := ⟨sample_laws.fresh, sample_laws.noBar⟩
  have settled : ∀ event ∈ Run.trace (perform sampleCtx) Store.empty (sampleInputs sampleAddresses),
      ∀ poolId updates, event.input.tx ≠ .updateUserPool poolId updates := by
    intro event member
    have input : event.input ∈ sampleInputs sampleAddresses := by
      rw [← Run.trace_inputs (perform sampleCtx) (sampleInputs sampleAddresses) Store.empty]
      exact List.mem_map_of_mem member
    intro poolId updates
    revert input
    generalize event.input = request
    revert request
    simp [sampleInputs, sampleAddresses]
  obtain ⟨apart, named⟩ := login_names uuids sample_lower
    (CognitoRun.of_inputs sampleCtx (sampleInputs sampleAddresses) (by decide)) settled sampleAddressPool rfl
  refine ⟨_, _, rfl, List.pairwise_pair.mp apart, ?_, ?_⟩
  · refine (named _ (List.mem_of_getElem? (i := 0) rfl) rfl "DEV@example.com").2 (by decide)
      (by decide) (by decide)
  · refine (named _ (List.mem_of_getElem? (i := 1) rfl) rfl "ops@Example.com").2 (by decide)
      (by decide) (by decide)

end Sample

end CloudTwin.Cognito
