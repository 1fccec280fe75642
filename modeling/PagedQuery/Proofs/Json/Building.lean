import PagedQuery.Proofs.Json.Scanning

/-!
# Building what was written

The tokens of a value, wherever a value may stand, put that value there. So the
text of a value reads as the value.

* `Json.Builder.run?`: the builder after some more tokens;
* `Json.build_tokens`: the tokens of a value put the value;
* `Json.read?_render`: the text of a value reads as the value.
-/

namespace PagedQuery.Json

namespace Builder

variable {b b' : Builder} {token : Token} {tokens : List Token}

/-- The builder after some more tokens. -/
def run? (b : Builder) (tokens : List Token) : Option Builder :=
  tokens.foldlM feed b

@[simp] theorem run?_nil : b.run? [] = some b := rfl

theorem run?_cons_of_eq (h : b.feed token = some b') (rest : List Token) :
    b.run? (token :: rest) = b'.run? rest := by
  rw [run?, List.foldlM_cons, h]
  rfl

theorem run?_append_of_eq (h : b.run? tokens = some b') (rest : List Token) :
    b.run? (tokens ++ rest) = b'.run? rest := by
  rw [run?, List.foldlM_append]
  change (b.run? tokens).bind _ = _
  rw [h]
  rfl

/-- Whether a value may stand next. -/
def WantsValue (b : Builder) : Prop :=
  b.want = .value ∨ b.want = .valueOrClose

/-- Whether a key may stand next. -/
def WantsKey (b : Builder) : Prop :=
  b.want = .key ∨ b.want = .keyOrClose

theorem feed_of_wantsValue (hwants : b.WantsValue) (h : b.beginValue token = some b') :
    b.feed token = some b' := by
  obtain ⟨want, stack, root⟩ := b
  rcases hwants with hwant | hwant
  · cases hwant
    exact h
  · cases hwant
    exact congrArg (· <|> close _ token) h

theorem feed_of_wantsKey (hwants : b.WantsKey) (h : b.beginKey token = some b') :
    b.feed token = some b' := by
  obtain ⟨want, stack, root⟩ := b
  rcases hwants with hwant | hwant
  · cases hwant
    exact h
  · cases hwant
    exact congrArg (· <|> close _ token) h

theorem put_congr (hstack : b'.stack = b.stack) (hroot : b'.root = b.root) (value : Json) :
    b'.put value = b.put value := by
  obtain ⟨want, stack, root⟩ := b
  obtain ⟨want', stack', root'⟩ := b'
  cases hstack
  cases hroot
  rcases stack with _ | ⟨_ | _, outer⟩ <;> rfl

section

variable {items : List Json} {members : List (Option String × Json)} {key : Option String}
  {outer : List Frame}

theorem put_array (hstack : b.stack = .array items :: outer) (value : Json) :
    b.put value = { b with want := .commaOrClose, stack := .array (value :: items) :: outer } := by
  rw [put, hstack]

theorem put_object (hstack : b.stack = .object members key :: outer) (value : Json) :
    b.put value = { b with
      want := .commaOrClose
      stack := .object ((key, value) :: members) key :: outer } := by
  rw [put, hstack]

theorem feed_closeArray (hwant : b.want = .valueOrClose ∨ b.want = .commaOrClose)
    (hstack : b.stack = .array items :: outer) :
    b.feed .closeArray = some ({ b with stack := outer }.put (.array items.reverse)) := by
  obtain ⟨want, stack, root⟩ := b
  cases hstack
  rcases hwant with hwant | hwant
  · cases hwant
    rfl
  · cases hwant
    rfl

theorem feed_closeObject (hwant : b.want = .keyOrClose ∨ b.want = .commaOrClose)
    (hstack : b.stack = .object members key :: outer) :
    b.feed .closeObject = some ({ b with stack := outer }.put (.object members.reverse)) := by
  obtain ⟨want, stack, root⟩ := b
  cases hstack
  rcases hwant with hwant | hwant
  · cases hwant
    rfl
  · cases hwant
    rfl

theorem feed_comma_array (hwant : b.want = .commaOrClose)
    (hstack : b.stack = .array items :: outer) :
    b.feed .comma = some { b with want := .value } := by
  obtain ⟨want, stack, root⟩ := b
  cases hstack
  cases hwant
  rfl

theorem feed_comma_object (hwant : b.want = .commaOrClose)
    (hstack : b.stack = .object members key :: outer) :
    b.feed .comma = some { b with want := .key } := by
  obtain ⟨want, stack, root⟩ := b
  cases hstack
  cases hwant
  rfl

theorem feed_colon (hwant : b.want = .colon) : b.feed .colon = some { b with want := .value } := by
  rw [feed, hwant]

theorem beginKey_object (hstack : b.stack = .object members key :: outer) (next : Option String) :
    b.beginKey (.scalar (.string next)) =
      some { b with want := .colon, stack := .object members next :: outer } := by
  rw [beginKey, hstack]

end

end Builder

open Builder

mutual

/-- The tokens of a value put it where a value may stand. -/
theorem build_tokens : ∀ (value : Json) {b : Builder}, b.WantsValue →
    b.run? value.tokens = some (b.put value)
  | .null, _, h => run?_cons_of_eq (feed_of_wantsValue h rfl) []
  | .bool _, _, h => run?_cons_of_eq (feed_of_wantsValue h rfl) []
  | .number _, _, h => run?_cons_of_eq (feed_of_wantsValue h rfl) []
  | .string _, _, h => run?_cons_of_eq (feed_of_wantsValue h rfl) []
  | .array items, b, h => by
    obtain ⟨b', hitems, hwant, hstack, hroot⟩ := build_itemTokens items
      (b := { b with want := .valueOrClose, stack := .array [] :: b.stack }) (.inr rfl) rfl
    have hclose : b'.want = .valueOrClose ∨ b'.want = .commaOrClose := hwant.imp And.left id
    rw [tokens, List.cons_append, run?_cons_of_eq (feed_of_wantsValue h rfl),
      run?_append_of_eq hitems, run?_cons_of_eq (feed_closeArray hclose hstack), run?_nil,
      List.append_nil, List.reverse_reverse]
    apply congrArg some
    apply put_congr
    · rfl
    · exact hroot
  | .object members, b, h => by
    obtain ⟨b', key, hmembers, hwant, hstack, hroot⟩ := build_memberTokens members
      (b := { b with want := .keyOrClose, stack := .object [] none :: b.stack }) (.inr rfl) rfl
    have hclose : b'.want = .keyOrClose ∨ b'.want = .commaOrClose := hwant.imp And.left id
    rw [tokens, List.cons_append, run?_cons_of_eq (feed_of_wantsValue h rfl),
      run?_append_of_eq hmembers, run?_cons_of_eq (feed_closeObject hclose hstack), run?_nil,
      List.append_nil, List.reverse_reverse]
    apply congrArg some
    apply put_congr
    · rfl
    · exact hroot

/-- The tokens of items put these into the array that is open. -/
theorem build_itemTokens : ∀ (items : List Json) {b : Builder} {before : List Json}
    {outer : List Frame}, b.WantsValue → b.stack = .array before :: outer →
    ∃ b', b.run? (itemTokens items) = some b' ∧
      (b'.want = b.want ∧ items = [] ∨ b'.want = .commaOrClose) ∧
      b'.stack = .array (items.reverse ++ before) :: outer ∧ b'.root = b.root
  | [], b, before, outer, _, hstack => ⟨b, rfl, .inl ⟨rfl, rfl⟩, hstack, rfl⟩
  | [item], b, before, outer, h, hstack => by
    refine ⟨b.put item, build_tokens item h, ?_⟩
    rw [put_array hstack]
    exact ⟨.inr rfl, rfl, rfl⟩
  | item :: next :: rest, b, before, outer, h, hstack => by
    have hput := build_tokens item h
    rw [put_array hstack] at hput
    obtain ⟨b', hrest, hwant, hstack', hroot⟩ := build_itemTokens (next :: rest)
      (b := { b with want := .value, stack := .array (item :: before) :: outer }) (.inl rfl) rfl
    refine ⟨b', ?_, ?_, ?_, hroot⟩
    · rw [itemTokens, run?_append_of_eq hput, run?_cons_of_eq (feed_comma_array rfl rfl)]
      exact hrest
    · rcases hwant with ⟨-, hnil⟩ | hwant
      · cases hnil
      · exact .inr hwant
    · rw [hstack']
      simp

/-- The tokens of members put these into the object that is open. -/
theorem build_memberTokens : ∀ (members : List (Option String × Json)) {b : Builder}
    {before : List (Option String × Json)} {last : Option String} {outer : List Frame},
    b.WantsKey → b.stack = .object before last :: outer →
    ∃ b' key, b.run? (memberTokens members) = some b' ∧
      (b'.want = b.want ∧ members = [] ∨ b'.want = .commaOrClose) ∧
      b'.stack = .object (members.reverse ++ before) key :: outer ∧ b'.root = b.root
  | [], b, before, last, outer, _, hstack => ⟨b, last, rfl, .inl ⟨rfl, rfl⟩, hstack, rfl⟩
  | [(key, value)], b, before, last, outer, h, hstack => by
    have hput := build_tokens value
      (b := { b with want := .value, stack := .object before key :: outer }) (.inl rfl)
    rw [put_object rfl] at hput
    refine ⟨{ b with
      want := .commaOrClose
      stack := .object ((key, value) :: before) key :: outer }, key, ?_, .inr rfl, rfl, rfl⟩
    rw [memberTokens, run?_cons_of_eq (feed_of_wantsKey h (beginKey_object hstack key)),
      run?_cons_of_eq (feed_colon rfl)]
    exact hput
  | (key, value) :: next :: rest, b, before, last, outer, h, hstack => by
    have hput := build_tokens value
      (b := { b with want := .value, stack := .object before key :: outer }) (.inl rfl)
    rw [put_object rfl] at hput
    obtain ⟨b', last', hrest, hwant, hstack', hroot⟩ := build_memberTokens (next :: rest)
      (b := { b with want := .key, stack := .object ((key, value) :: before) key :: outer })
      (.inl rfl) rfl
    refine ⟨b', last', ?_, ?_, ?_, hroot⟩
    · rw [memberTokens, List.cons_append, List.cons_append,
        run?_cons_of_eq (feed_of_wantsKey h (beginKey_object hstack key)),
        run?_cons_of_eq (feed_colon rfl), run?_append_of_eq hput,
        run?_cons_of_eq (feed_comma_object rfl rfl)]
      exact hrest
    · rcases hwant with ⟨-, hnil⟩ | hwant
      · cases hnil
      · exact .inr hwant
    · rw [hstack']
      simp

end

/-- The text of a value reads as the value. -/
theorem read?_render {value : Json} (h : value.HasText) : read? value.render = some value := by
  rw [read?, render, String.toList_ofList, scan?_renderChars h, Option.bind_some]
  change (Builder.run? _ value.tokens).bind Builder.finish? = _
  rw [build_tokens value (.inl rfl), Option.bind_some]
  rfl

end PagedQuery.Json
