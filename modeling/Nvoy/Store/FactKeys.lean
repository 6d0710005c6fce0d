/-
**Fact keys**: `formatFactKey` and `parseFactKey` of `memory.mjs`, and the access rule of the store that reads
them.

* `afterPrefix_eq_some`, `split_eq` — the two ways in which a key is taken apart;
* `parseScope_scope` — a normalized scope is its own normal form;
* `parseFactKey_formatFactKey`, `formatFactKey_of_parse` — the two directions of the round trip;
* `scopeRefusal` — the access rule, by the scope itself;
* `factKeys_roundTrip` — the keys are those of a scope and a slug, each of one, and the access rule taken on
  a key is that of the scope a validated claim has.
-/

import Nvoy.Lib.Lines
import Nvoy.Store.Config

namespace Nvoy.Store

open Memory

/-! ### Taking a text apart -/

section Texts

variable {start text rest : String} {c : Char}

theorem afterPrefix_eq_some : afterPrefix start text = some rest ↔ text = start ++ rest := by
  unfold afterPrefix
  constructor
  · intro found
    split_ifs at found with before
    obtain ⟨tail, whole⟩ := List.isPrefixOf_iff_prefix.mp before
    rw [← whole, List.drop_left, Option.some_inj] at found
    apply String.toList_inj.mp
    rw [String.toList_append, ← found, String.toList_ofList, whole]
  · rintro rfl
    rw [String.toList_append, if_pos (List.isPrefixOf_iff_prefix.mpr (List.prefix_append _ _)),
      List.drop_left, String.ofList_toList]

theorem afterPrefix_append : afterPrefix start (start ++ rest) = some rest := afterPrefix_eq_some.mpr rfl

/-- A text that begins with another letter has not the prefix. -/
theorem afterPrefix_eq_none (first : Char) {letters : List Char} (begins : start.toList = first :: letters)
    (differs : text.toList.head? ≠ some first) : afterPrefix start text = none := by
  by_contra found
  obtain ⟨rest, found⟩ := Option.ne_none_iff_exists'.mp found
  obtain rfl := afterPrefix_eq_some.mp found
  rw [String.toList_append, begins] at differs
  exact differs rfl

/-- Three parts without the separator, and the text that they make. -/
theorem split_eq (first : String) {second third : String}
    (clean : ':' ∉ first.toList ∧ ':' ∉ second.toList ∧ ':' ∉ third.toList) :
    split ':' (first ++ ":" ++ second ++ ":" ++ third) = [first, second, third] := by
  have joined : (first ++ ":" ++ second ++ ":" ++ third).toList =
      [':'].intercalate [first.toList, second.toList, third.toList] := by
    simp [List.intercalate, String.toList_append]
  have parts : ∀ part ∈ [first.toList, second.toList, third.toList], ':' ∉ part := by
    simp [clean]
  rw [split, joined, List.splitOn_intercalate ':' parts (List.cons_ne_nil _ _)]
  simp

theorem text_of_split {first second third : String} (parts : split ':' text = [first, second, third]) :
    text = first ++ ":" ++ second ++ ":" ++ third := by
  have split : text.toList.splitOn ':' = [first.toList, second.toList, third.toList] := by
    have lists := congrArg (List.map String.toList) parts
    rw [Memory.split, List.map_map] at lists
    have same : String.toList ∘ String.ofList = id := by
      funext chars
      exact String.toList_ofList
    rw [same, List.map_id] at lists
    exact lists
  have joined : List.intercalate [':'] (text.toList.splitOn ':') = text.toList :=
    List.intercalate_splitOn ':'
  rw [split] at joined
  apply String.toList_inj.mp
  rw [← joined]
  simp [List.intercalate, String.toList_append]

theorem isLowerHex_colon : isLowerHex ':' = false := by decide

theorem clean_of_isHex64 (hex : isHex64 text = true) : ':' ∉ text.toList := by
  intro inside
  rw [isHex64, Bool.and_eq_true, List.all_eq_true] at hex
  exact absurd (hex.2 ':' inside) (by decide)

/-- The characters of a room id. -/
theorem isUuid_chars (uuid : isUuid text = true) (inside : c ∈ text.toList) :
    c = '-' ∨ isLowerHex c = true := by
  rw [isUuid, Bool.and_eq_true, List.all_eq_true] at uuid
  obtain rfl | ⟨part, listed, member⟩ := Lines.mem_splitOn '-' inside
  · exact .inl rfl
  · exact .inr (List.all_eq_true.mp (uuid.2 part listed) c member)

theorem clean_of_isUuid (uuid : isUuid text = true) : ':' ∉ text.toList := by
  intro inside
  obtain dash | hex := isUuid_chars uuid inside
  · exact absurd dash (by decide)
  · exact absurd hex (by decide)

theorem lowerAscii_of_isUuid (uuid : isUuid text = true) : lowerAscii text = text := by
  refine lowerAscii_of_toLower fun c inside => ?_
  obtain rfl | hex := isUuid_chars uuid inside
  · decide
  · exact toLower_of_isLowerHex hex

theorem clean_of_isSlug (slug : isSlug text = true) : ':' ∉ text.toList := by
  unfold isSlug at slug
  split at slug
  · exact absurd slug (by decide)
  · rename_i first letters chars
    simp only [Bool.and_eq_true, List.all_eq_true] at slug
    rw [chars, List.mem_cons]
    rintro (head | later)
    · exact absurd (head ▸ slug.1.1) (by decide)
    · exact absurd (slug.2 ':' later) (by decide)

end Texts

/-! ### Scopes -/

/-- A scope with its type and owner, as `parseScope` gives it. -/
inductive Normal : Scope → Prop
  | hiveOps : Normal ⟨.hiveOps, "hive:ops", none, none⟩
  | hiveCanon : Normal ⟨.hiveCanon, "hive:canon", none, none⟩
  | room {roomId : String} (uuid : isUuid roomId = true) : Normal ⟨.room, "room:" ++ roomId, some roomId, none⟩
  | self {pubkey : String} (hex : isHex64 pubkey = true) :
      Normal ⟨.self, "self:" ++ pubkey, none, some pubkey⟩

section Scopes

variable {scopeStr slug d : String} {scope : Scope} {key : FactKey}

theorem normal_of_parse (parsed : parseScope scopeStr = some scope) : Normal scope := by
  unfold parseScope at parsed
  split at parsed
  · rename_i same
    obtain rfl := Option.some.inj parsed
    exact same ▸ .hiveOps
  · split at parsed
    · rename_i same
      obtain rfl := Option.some.inj parsed
      exact same ▸ .hiveCanon
    · split at parsed
      · dsimp only at parsed
        split_ifs at parsed with uuid
        obtain rfl := Option.some.inj parsed
        exact .room uuid
      · split at parsed
        · dsimp only at parsed
          split_ifs at parsed with hex
          obtain rfl := Option.some.inj parsed
          exact .self hex
        · nomatch parsed

theorem parseScope_room {roomId : String} (uuid : isUuid roomId = true) :
    parseScope ("room:" ++ roomId) = some ⟨.room, "room:" ++ roomId, some roomId, none⟩ := by
  have ops : "room:" ++ roomId ≠ "hive:ops" := fun same => by
    simpa using congrArg (·.toList.head?) same
  have canon : "room:" ++ roomId ≠ "hive:canon" := fun same => by
    simpa using congrArg (·.toList.head?) same
  rw [parseScope, if_neg ops, if_neg canon, afterPrefix_append]
  dsimp only
  rw [lowerAscii_of_isUuid uuid, if_pos uuid]

theorem parseScope_self {pubkey : String} (hex : isHex64 pubkey = true) :
    parseScope ("self:" ++ pubkey) = some ⟨.self, "self:" ++ pubkey, none, some pubkey⟩ := by
  have ops : "self:" ++ pubkey ≠ "hive:ops" := fun same => by
    simpa using congrArg (·.toList.head?) same
  have canon : "self:" ++ pubkey ≠ "hive:canon" := fun same => by
    simpa using congrArg (·.toList.head?) same
  have room : afterPrefix "room:" ("self:" ++ pubkey) = none :=
    afterPrefix_eq_none 'r' rfl (by simp)
  rw [parseScope, if_neg ops, if_neg canon, room]
  dsimp only
  rw [afterPrefix_append]
  dsimp only
  rw [lowerAscii_of_isHex64 hex, if_pos hex]

/-- A normalized scope is its own normal form. -/
theorem parseScope_scope (normal : Normal scope) : parseScope scope.scope = some scope := by
  cases normal with
  | hiveOps => decide
  | hiveCanon => decide
  | room uuid => exact parseScope_room uuid
  | self hex => exact parseScope_self hex

/-! ### The round trip -/

/-- The key of a scope and a slug. -/
def keyOf (scope : Scope) (slug : String) : FactKey :=
  ⟨scope.scope, slug, MEMORY_D_PREFIX ++ scope.scope ++ ":" ++ slug, scope.roomId, scope.pubkey⟩

theorem formatFactKey_eq_some : formatFactKey scopeStr slug = some d ↔
    ∃ scope, parseScope scopeStr = some scope ∧ isSlug slug = true ∧ (keyOf scope slug).d = d := by
  unfold formatFactKey
  cases parseScope scopeStr with
  | none => simp
  | some scope => simp [keyOf]

theorem parseFactKey_global {name : String} {type : ScopeType} (global : (name = "hive:ops" ∧ type = .hiveOps) ∨
    (name = "hive:canon" ∧ type = .hiveCanon)) (valid : isSlug slug = true) :
    parseFactKey (MEMORY_D_PREFIX ++ name ++ ":" ++ slug) = some (keyOf ⟨type, name, none, none⟩ slug) := by
  rw [parseFactKey, String.append_assoc, String.append_assoc, afterPrefix_append]
  dsimp only
  obtain ⟨rfl, rfl⟩ | ⟨rfl, rfl⟩ := global
  · have rest : "hive:ops" ++ (":" ++ slug) = "hive:ops:" ++ slug := by
      rw [← String.append_assoc]
      rfl
    rw [rest, afterPrefix_append]
    dsimp only
    rw [if_pos valid, ← rest, keyOf, String.append_assoc, String.append_assoc]
  · have rest : "hive:canon" ++ (":" ++ slug) = "hive:canon:" ++ slug := by
      rw [← String.append_assoc]
      rfl
    have ops : afterPrefix "hive:ops:" ("hive:canon:" ++ slug) = none := by
      by_contra found
      obtain ⟨other, found⟩ := Option.ne_none_iff_exists'.mp found
      have same := congrArg (·.toList[5]?) (afterPrefix_eq_some.mp found)
      simp at same
    rw [rest, ops]
    dsimp only
    rw [afterPrefix_append]
    dsimp only
    rw [if_pos valid, ← rest, keyOf, String.append_assoc, String.append_assoc]

theorem parseFactKey_owned {rest : String} (begins : rest.toList.head? ≠ some 'h') :
    parseFactKey (MEMORY_D_PREFIX ++ rest) = parseOwnedKey (MEMORY_D_PREFIX ++ rest) rest := by
  have ops : afterPrefix "hive:ops:" rest = none := afterPrefix_eq_none 'h' rfl begins
  have canon : afterPrefix "hive:canon:" rest = none := afterPrefix_eq_none 'h' rfl begins
  rw [parseFactKey, afterPrefix_append]
  dsimp only
  rw [ops]
  dsimp only
  rw [canon]

/-- **The parser reads back what the formatter writes.** -/
theorem parseFactKey_keyOf (normal : Normal scope) (valid : isSlug slug = true) :
    parseFactKey (keyOf scope slug).d = some (keyOf scope slug) := by
  have clean := clean_of_isSlug valid
  cases normal with
  | hiveOps => exact parseFactKey_global (.inl ⟨rfl, rfl⟩) valid
  | hiveCanon => exact parseFactKey_global (.inr ⟨rfl, rfl⟩) valid
  | room uuid =>
      rename_i roomId
      have parts := split_eq "room" ⟨by decide, clean_of_isUuid uuid, clean⟩
      have key : (keyOf ⟨.room, "room:" ++ roomId, some roomId, none⟩ slug).d =
          MEMORY_D_PREFIX ++ ("room" ++ ":" ++ roomId ++ ":" ++ slug) := by
        simp [keyOf, ← String.toList_inj]
      rw [key, parseFactKey_owned (by simp)]
      simp only [parseOwnedKey, parts, uuid, valid, Bool.and_self, if_true]
      rw [← key]
      rfl
  | self hex =>
      rename_i pubkey
      have parts := split_eq "self" ⟨by decide, clean_of_isHex64 hex, clean⟩
      have key : (keyOf ⟨.self, "self:" ++ pubkey, none, some pubkey⟩ slug).d =
          MEMORY_D_PREFIX ++ ("self" ++ ":" ++ pubkey ++ ":" ++ slug) := by
        simp [keyOf, ← String.toList_inj]
      rw [key, parseFactKey_owned (by simp)]
      simp only [parseOwnedKey, parts, hex, valid, Bool.and_self, if_true]
      rw [← key]
      rfl

/-- What the parser accepts is a key of a scope and a slug. -/
theorem eq_keyOf_of_parse (parsed : parseFactKey d = some key) :
    ∃ scope, Normal scope ∧ isSlug key.slug = true ∧ key = keyOf scope key.slug ∧ key.d = d := by
  unfold parseFactKey at parsed
  split at parsed
  · nomatch parsed
  · rename_i rest whole
    obtain rfl := afterPrefix_eq_some.mp whole
    split at parsed
    · rename_i slug found
      obtain rfl := afterPrefix_eq_some.mp found
      split_ifs at parsed with valid
      obtain rfl := Option.some.inj parsed
      exact ⟨_, .hiveOps, valid, by simp [keyOf, ← String.toList_inj], rfl⟩
    · split at parsed
      · rename_i slug found
        obtain rfl := afterPrefix_eq_some.mp found
        split_ifs at parsed with valid
        obtain rfl := Option.some.inj parsed
        exact ⟨_, .hiveCanon, valid, by simp [keyOf, ← String.toList_inj], rfl⟩
      · unfold parseOwnedKey at parsed
        split at parsed
        · rename_i roomId slug parts
          split_ifs at parsed with valid
          rw [Bool.and_eq_true] at valid
          obtain rfl := Option.some.inj parsed
          obtain rfl := text_of_split parts
          exact ⟨_, .room valid.1, valid.2, by simp [keyOf, ← String.toList_inj], rfl⟩
        · rename_i pubkey slug parts
          split_ifs at parsed with valid
          rw [Bool.and_eq_true] at valid
          obtain rfl := Option.some.inj parsed
          obtain rfl := text_of_split parts
          exact ⟨_, .self valid.1, valid.2, by simp [keyOf, ← String.toList_inj], rfl⟩
        · nomatch parsed

theorem parseFactKey_formatFactKey (formatted : formatFactKey scopeStr slug = some d) :
    ∃ scope, parseScope scopeStr = some scope ∧ parseFactKey d = some (keyOf scope slug) := by
  obtain ⟨scope, parsed, valid, rfl⟩ := formatFactKey_eq_some.mp formatted
  exact ⟨scope, parsed, parseFactKey_keyOf (normal_of_parse parsed) valid⟩

theorem formatFactKey_of_parse (parsed : parseFactKey d = some key) :
    formatFactKey key.scope key.slug = some d := by
  obtain ⟨scope, normal, valid, same, rfl⟩ := eq_keyOf_of_parse parsed
  have name : key.scope = scope.scope := congrArg FactKey.scope same
  rw [formatFactKey_eq_some, name]
  exact ⟨scope, parseScope_scope normal, valid, congrArg FactKey.d same.symm⟩

end Scopes

/-! ### The access rule of a scope -/

/-- Why a key may not write the scope. -/
def scopeRefusal (config : Config) (writer : Option Writer) (pubkey : String) (scope : Scope) : Option String :=
  match scope.type with
  | .hiveCanon =>
      if pubkey = config.ownerPubkey || config.canonWriters.has pubkey then none
      else some "hive:canon is written by the owner and canonWriters only"
  | .hiveOps =>
      if pubkey = config.ownerPubkey || config.globalWriters.has pubkey then none
      else some "hive:ops is written by the owner and globalWriters only"
  | .room =>
      if (scope.roomId.bind config.rooms.get).any fun room =>
          room.writers.has pubkey && room.members.has pubkey then none
      else some "this key is not a writer and member of that room"
  | .self =>
      if writer.any (·.allowSelf) && scope.pubkey = some pubkey then none
      else some "self scopes are not enabled for this writer"

theorem writeRefusal_keyOf (config : Config) (writer : Option Writer) (pubkey : String) {scope : Scope}
    (normal : Normal scope) (slug : String) :
    writeRefusal config writer pubkey (keyOf scope slug) = scopeRefusal config writer pubkey scope := by
  cases normal with
  | hiveOps => rfl
  | hiveCanon => rfl
  | room uuid =>
      rename_i roomId
      have canon : "room:" ++ roomId ≠ "hive:canon" := fun same => by
        simpa using congrArg (·.toList.head?) same
      have ops : "room:" ++ roomId ≠ "hive:ops" := fun same => by
        simpa using congrArg (·.toList.head?) same
      rw [writeRefusal, keyOf, if_neg canon, if_neg ops]
      rfl
  | self hex =>
      rename_i owner
      have canon : "self:" ++ owner ≠ "hive:canon" := fun same => by
        simpa using congrArg (·.toList.head?) same
      have ops : "self:" ++ owner ≠ "hive:ops" := fun same => by
        simpa using congrArg (·.toList.head?) same
      rw [writeRefusal, keyOf, if_neg canon, if_neg ops]
      simp only [scopeRefusal, Option.some_inj]

/-! ### The round trip -/

/-- **Fact keys round-trip.** The parser reads back what the formatter writes, the formatter writes what the
parser reads, no key is of two scopes or slugs, and the access rule on the key of a validated claim is that
of the scope the claim has. -/
theorem factKeys_roundTrip :
    (∀ scopeStr slug d, formatFactKey scopeStr slug = some d → ∃ scope, parseScope scopeStr = some scope ∧
      parseFactKey d = some ⟨scope.scope, slug, d, scope.roomId, scope.pubkey⟩) ∧
    (∀ d key, parseFactKey d = some key → key.d = d ∧ formatFactKey key.scope key.slug = some d) ∧
    (∀ scopeStr scopeStr' slug slug' d, formatFactKey scopeStr slug = some d →
      formatFactKey scopeStr' slug' = some d → parseScope scopeStr = parseScope scopeStr' ∧ slug = slug') ∧
    ∀ host channel allowedKinds verifySignature ev v,
      validateMemoryEvent host channel allowedKinds verifySignature ev = .ok v →
      ∃ key scope, parseFactKey v.d = some key ∧ key.slug = v.slug ∧ key.scope = v.scope ∧
        parseScope v.scope = some scope ∧ scope.type = v.scopeType ∧ scope.roomId = v.roomId ∧
        ∀ config writer pubkey,
          writeRefusal config writer pubkey key = scopeRefusal config writer pubkey scope := by
  refine ⟨fun scopeStr slug d formatted => ?_, fun d key parsed => ?_, ?_, ?_⟩
  · obtain ⟨scope, parsed, valid, rfl⟩ := formatFactKey_eq_some.mp formatted
    exact ⟨scope, parsed, parseFactKey_keyOf (normal_of_parse parsed) valid⟩
  · obtain ⟨-, -, -, -, same⟩ := eq_keyOf_of_parse parsed
    exact ⟨same, formatFactKey_of_parse parsed⟩
  · intro scopeStr scopeStr' slug slug' d first second
    obtain ⟨scope, parsed, key⟩ := parseFactKey_formatFactKey first
    obtain ⟨scope', parsed', key'⟩ := parseFactKey_formatFactKey second
    have same : keyOf scope slug = keyOf scope' slug' := Option.some.inj (key.symm.trans key')
    have scopes : scope.scope = scope'.scope := congrArg FactKey.scope same
    have one : some scope = some scope' := by
      rw [← parseScope_scope (normal_of_parse parsed), scopes, parseScope_scope (normal_of_parse parsed')]
    exact ⟨by rw [parsed, parsed', one], congrArg FactKey.slug same⟩
  · intro host channel allowedKinds verifySignature ev v valid
    obtain ⟨key, parsed, slug, scope, scoped_, name, type, roomId⟩ := (reads_of_valid valid).parsed
    obtain ⟨normal, whole, -, same, -⟩ := eq_keyOf_of_parse parsed
    have own : key.scope = normal.scope := congrArg FactKey.scope same
    rw [own, parseScope_scope whole, Option.some_inj] at scoped_
    subst scoped_
    refine ⟨key, normal, parsed, slug, own.trans name, name ▸ parseScope_scope whole, type, roomId, ?_⟩
    intro config writer pubkey
    rw [same]
    exact writeRefusal_keyOf config writer pubkey whole key.slug

end Nvoy.Store
