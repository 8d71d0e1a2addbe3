import DocumentApi.Json.Reader

/-!
JSON text against its grammar. The reader goes from state to state; the tokens that lead to a state
are those of all that is open in it (`Reached`), and the tokens of a value lead on from any place
where a value is expected. Main statements: `read_eq_ok_iff`, that the value that is read is the one
that the tokens are written for, and `readTokens_eq_number_iff`, where the reader stops at a number.
-/

set_option autoImplicit false

namespace DocumentApi.Json

/-! The grammar. -/

mutual

/-- The tokens of a value. -/
inductive Written : Value → List Token → Prop where
  | scalar (v : Value) : Written v [.scalar v]
  | string (s : String) : Written (.string s) [.string s]
  | emptyList : Written (.list []) [.openList, .closeList]
  | list {items : List Value} {ts : List Token} (h : WrittenItems items ts) :
    Written (.list items) (.openList :: (ts ++ [.closeList]))
  | emptyObject : Written (.object []) [.openObject, .closeObject]
  | object {fields : Record Value} {ts : List Token} (h : WrittenFields fields ts) :
    Written (.object fields) (.openObject :: (ts ++ [.closeObject]))

/-- The items of a list, with a comma between any two. -/
inductive WrittenItems : List Value → List Token → Prop where
  | first {v : Value} {ts : List Token} (h : Written v ts) : WrittenItems [v] ts
  | next {items : List Value} {ts : List Token} {v : Value} {us : List Token}
    (hitems : WrittenItems items ts) (h : Written v us) :
    WrittenItems (items ++ [v]) (ts ++ .comma :: us)

/-- The fields of an object. A name that comes again keeps its place and has the later value. -/
inductive WrittenFields : Record Value → List Token → Prop where
  | first {name : String} {v : Value} {ts : List Token} (h : Written v ts) :
    WrittenFields (Record.set [] name v) (.string name :: .colon :: ts)
  | next {fields : Record Value} {ts : List Token} {name : String} {v : Value} {us : List Token}
    (hfields : WrittenFields fields ts) (h : Written v us) :
    WrittenFields (fields.set name v) (ts ++ .comma :: .string name :: .colon :: us)

end

/-- After these tokens a value can come, with which they are the beginning of some text. -/
def ValueMayFollow (before : List Token) : Prop :=
  ∃ v after w, Written w (before ++ .scalar v :: after)

/-! States. -/

/-- The state after all of the tokens, if each of them can stand where it does. -/
def after? (state : State) : List Token → Option State
  | [] => some state
  | token :: rest =>
    match advance? state.1 token state.2 with
    | some (.ok next) => after? next rest
    | _ => none

theorem after?_append (state : State) (ts us : List Token) :
    after? state (ts ++ us) = (after? state ts).bind fun next => after? next us := by
  induction ts generalizing state with
  | nil => rfl
  | cons token rest ih =>
    rw [List.cons_append, after?, after?]
    split
    · exact ih _
    · rfl

theorem after?_append_of_eq_some {state next : State} {ts : List Token}
    (h : after? state ts = some next) (us : List Token) :
    after? state (ts ++ us) = after? next us := by
  rw [after?_append, h, Option.bind_some]

theorem after?_cons_eq_some {state next : State} {token : Token} {rest : List Token}
    (h : after? state (token :: rest) = some next) :
    ∃ middle, advance? state.1 token state.2 = some (.ok middle) ∧
      after? middle rest = some next := by
  rw [after?] at h
  split at h
  · rename_i middle hmiddle
    exact ⟨middle, hmiddle, h⟩
  · cases h

/-! Tokens that lead to a state. -/

/-- Items that are all followed by a comma. -/
inductive ItemsBefore : List Value → List Token → Prop where
  | none : ItemsBefore [] []
  | some {items : List Value} {ts : List Token} (h : WrittenItems items ts) :
    ItemsBefore items (ts ++ [.comma])

inductive FieldsBefore : Record Value → List Token → Prop where
  | none : FieldsBefore [] []
  | some {fields : Record Value} {ts : List Token} (h : WrittenFields fields ts) :
    FieldsBefore fields (ts ++ [.comma])

/-- Tokens up to a value inside the lists and objects of a stack. -/
inductive Opened : List Frame → List Token → Prop where
  | none : Opened [] []
  | list {outer : List Frame} {before ts : List Token} {items : List Value}
    (h : Opened outer before) (hitems : ItemsBefore items ts) :
    Opened (.list items.reverse :: outer) (before ++ .openList :: ts)
  | object {outer : List Frame} {before ts : List Token} {fields : Record Value} {name : String}
    (h : Opened outer before) (hfields : FieldsBefore fields ts) :
    Opened (.object fields name :: outer) (before ++ .openObject :: (ts ++ [.string name, .colon]))

inductive Reached : State → List Token → Prop where
  | value {stack : List Frame} {before : List Token} (h : Opened stack before) :
    Reached (stack, .value) before
  | firstItem {stack : List Frame} {before : List Token} (h : Opened stack before) :
    Reached (.list [] :: stack, .firstItem) (before ++ [.openList])
  | name {stack : List Frame} {before ts : List Token} {fields : Record Value}
    (h : Opened stack before) (hfields : FieldsBefore fields ts) :
    Reached (stack, .name fields) (before ++ .openObject :: ts)
  | firstName {stack : List Frame} {before : List Token} (h : Opened stack before) :
    Reached (stack, .firstName) (before ++ [.openObject])
  | colon {stack : List Frame} {before ts : List Token} {fields : Record Value} {name : String}
    (h : Opened stack before) (hfields : FieldsBefore fields ts) :
    Reached (stack, .colon fields name) (before ++ .openObject :: (ts ++ [.string name]))
  | more {stack : List Frame} {before ts : List Token} {v : Value} (h : Opened stack before)
    (hv : Written v ts) : Reached (stack, .more v) (before ++ ts)

section Reached
variable {stack : List Frame} {state next : State} {token : Token} {before ts us : List Token}
  {items : List Value} {fields : Record Value} {name : String} {v : Value}

theorem ItemsBefore.append (h : ItemsBefore items ts) (hv : Written v us) :
    WrittenItems (items ++ [v]) (ts ++ us) := by
  cases h with
  | none => exact .first hv
  | some h =>
    rw [List.append_assoc]
    exact .next h hv

theorem FieldsBefore.append (h : FieldsBefore fields ts) (name : String) (hv : Written v us) :
    WrittenFields (fields.set name v) (ts ++ .string name :: .colon :: us) := by
  cases h with
  | none => exact .first hv
  | some h =>
    rw [List.append_assoc]
    exact .next h hv

theorem Opened.firstItem (h : Opened stack before) :
    Opened (.list [] :: stack) (before ++ [.openList]) := .list h .none

/-- A value starts inside of what is open, or it is a whole one. -/
theorem reached_startValue (h : Opened stack before)
    (hnext : startValue? stack token = some (.ok next)) : Reached next (before ++ [token]) := by
  cases token with
  | scalar v =>
    cases hnext
    exact .more h (.scalar v)
  | string s =>
    cases hnext
    exact .more h (.string s)
  | openList =>
    cases hnext
    exact .firstItem h
  | openObject =>
    cases hnext
    exact .firstName h
  | _ => cases hnext

theorem reached_startName (h : Opened stack before) (hfields : FieldsBefore fields ts)
    (hnext : startName? stack fields token = some (.ok next)) :
    Reached next (before ++ .openObject :: ts ++ [token]) := by
  cases token with
  | string name =>
    cases hnext
    rw [List.append_assoc]
    exact .colon h hfields
  | _ => cases hnext

/-- A comma or the end of what is open comes after a value. -/
theorem reached_afterValue (h : Opened stack before) (hv : Written v us)
    (hnext : afterValue? stack v token = some next) : Reached next (before ++ us ++ [token]) := by
  cases h with
  | none => cases token <;> cases hnext
  | @list outer before ts items h hitems =>
    have hwritten := hitems.append hv
    cases token with
    | comma =>
      cases hnext
      have hopened := Opened.list h (.some hwritten)
      rw [List.reverse_append] at hopened
      simpa using Reached.value hopened
    | closeList =>
      cases hnext
      simpa using Reached.more h (.list hwritten)
    | _ => cases hnext
  | @object outer before ts fields name h hfields =>
    have hwritten := hfields.append name hv
    cases token with
    | comma =>
      cases hnext
      simpa using Reached.name h (.some hwritten)
    | closeObject =>
      cases hnext
      simpa using Reached.more h (.object hwritten)
    | _ => cases hnext

/-- A step of the reader takes one token more. -/
theorem Reached.advance (h : Reached state ts)
    (hnext : advance? state.1 token state.2 = some (.ok next)) : Reached next (ts ++ [token]) := by
  cases h with
  | value h => exact reached_startValue h hnext
  | firstItem h =>
    -- the frame of a list is open already, with no item in it
    cases token with
    | closeList =>
      cases hnext
      rw [List.append_assoc]
      exact .more h .emptyList
    | _ => exact reached_startValue h.firstItem hnext
  | name h hfields => exact reached_startName h hfields hnext
  | firstName h =>
    cases token with
    | closeObject =>
      cases hnext
      rw [List.append_assoc]
      exact .more h .emptyObject
    | _ => exact reached_startName h .none hnext
  | colon h hfields =>
    cases token with
    | colon =>
      cases hnext
      simpa using Reached.value (.object h hfields)
    | _ => cases hnext
  | more h hv =>
    obtain ⟨state, hstate, hok⟩ := Option.map_eq_some_iff.mp hnext
    cases hok
    exact reached_afterValue h hv hstate

theorem Reached.after (h : Reached state ts) (hnext : after? state us = some next) :
    Reached next (ts ++ us) := by
  induction us generalizing state ts with
  | nil =>
    cases hnext
    rwa [List.append_nil]
  | cons token rest ih =>
    obtain ⟨middle, hmiddle, hrest⟩ := after?_cons_eq_some hnext
    have hreached := ih (h.advance hmiddle) hrest
    rwa [List.append_assoc] at hreached

theorem Reached.written (h : Reached ([], .more v) ts) : Written v ts := by
  cases h with
  | more h hv =>
    cases h with
    | none => exact hv

theorem written_of_after? (h : after? ([], .value) ts = some ([], .more v)) : Written v ts :=
  ((Reached.value .none).after h).written

end Reached

/-! Tokens of a value. -/

/-- No value starts with the end of a list. -/
theorem after?_firstItem {v : Value} {ts : List Token} (h : Written v ts) (stack : List Frame) :
    after? (stack, .firstItem) ts = after? (stack, .value) ts := by
  cases h <;> rfl

mutual

/-- The tokens of a value are read to their end, whatever is open around it. -/
theorem after?_written : ∀ {v : Value} {ts : List Token}, Written v ts → ∀ stack : List Frame,
    after? (stack, .value) ts = some (stack, .more v)
  | _, _, .scalar _, _ => rfl
  | _, _, .string _, _ => rfl
  | _, _, .emptyList, _ => rfl
  | _, _, .emptyObject, _ => rfl
  | _, _, .list h, stack => by
    obtain ⟨front, last, rfl, hafter⟩ := after?_items h stack
    have hclose := after?_append_of_eq_some hafter [.closeList]
    rw [after?]
    refine hclose.trans ?_
    simp [after?, advance?, afterValue?]
  | _, _, .object h, stack => by
    obtain ⟨front, name, last, rfl, hafter⟩ := after?_fields h stack
    exact after?_append_of_eq_some hafter [.closeObject]

theorem after?_items : ∀ {items : List Value} {ts : List Token}, WrittenItems items ts →
    ∀ stack : List Frame, ∃ front last, items = front ++ [last] ∧
      after? (.list [] :: stack, .firstItem) ts = some (.list front.reverse :: stack, .more last)
  | _, _, .first h, stack => by
    refine ⟨[], _, rfl, ?_⟩
    rw [after?_firstItem h]
    exact after?_written h _
  | _, _, .next hitems h, stack => by
    obtain ⟨front, last, rfl, hafter⟩ := after?_items hitems stack
    refine ⟨front ++ [last], _, rfl, ?_⟩
    rw [after?_append_of_eq_some hafter, List.reverse_append]
    exact after?_written h _

theorem after?_fields : ∀ {fields : Record Value} {ts : List Token}, WrittenFields fields ts →
    ∀ stack : List Frame, ∃ front name last, fields = Record.set front name last ∧
      after? (stack, .firstName) ts = some (.object front name :: stack, .more last)
  | _, _, .first h, stack => ⟨[], _, _, rfl, after?_written h _⟩
  | _, _, .next hfields h, stack => by
    obtain ⟨front, first, last, rfl, hafter⟩ := after?_fields hfields stack
    refine ⟨_, _, _, rfl, ?_⟩
    rw [after?_append_of_eq_some hafter]
    exact after?_written h _

end

theorem after?_eq_some_iff {v : Value} {ts : List Token} :
    after? ([], .value) ts = some ([], .more v) ↔ Written v ts :=
  ⟨written_of_after?, fun h => after?_written h []⟩

/-- Whatever is open can be closed. -/
theorem exists_closing (stack : List Frame) (v : Value) :
    ∃ ts w, after? (stack, .more v) ts = some ([], .more w) := by
  induction stack generalizing v with
  | nil => exact ⟨[], v, rfl⟩
  | cons frame outer ih =>
    cases frame with
    | list items =>
      obtain ⟨ts, w, hafter⟩ := ih (.list (v :: items).reverse)
      exact ⟨.closeList :: ts, w, hafter⟩
    | object fields name =>
      obtain ⟨ts, w, hafter⟩ := ih (.object (fields.set name v))
      exact ⟨.closeObject :: ts, w, hafter⟩

def Expectation.IsValue : Expectation → Prop
  | value | firstItem => True
  | _ => False

theorem advance?_scalar_of_isValue {expected : Expectation} (h : expected.IsValue)
    (stack : List Frame) (v : Value) :
    advance? stack (.scalar v) expected = some (.ok (stack, .more v)) := by
  cases expected <;> first | rfl | cases h

theorem isValue_of_advance?_scalar {expected : Expectation} {stack : List Frame} {v : Value}
    {next : State} (h : advance? stack (.scalar v) expected = some (.ok next)) :
    expected.IsValue := by
  cases expected <;> first | exact trivial | cases h

theorem valueMayFollow_iff {before : List Token} :
    ValueMayFollow before ↔
      ∃ state, after? ([], .value) before = some state ∧ state.2.IsValue := by
  constructor
  · rintro ⟨v, after, w, hwritten⟩
    have hafter := after?_written hwritten []
    rw [after?_append] at hafter
    obtain ⟨state, hstate, hrest⟩ := Option.bind_eq_some_iff.mp hafter
    obtain ⟨_, hscalar, -⟩ := after?_cons_eq_some hrest
    exact ⟨state, hstate, isValue_of_advance?_scalar hscalar⟩
  · rintro ⟨state, hstate, hvalue⟩
    obtain ⟨ts, w, hclosing⟩ := exists_closing state.1 .null
    refine ⟨.null, ts, w, written_of_after? ?_⟩
    rw [after?_append_of_eq_some hstate, after?, advance?_scalar_of_isValue hvalue]
    exact hclosing

/-! Reading. -/

section Read
variable {ending : Nat} {state : State} {tokens : List (Nat × Token)} {v : Value}

theorem readTokens_eq_ok_iff :
    readTokens ending state tokens = .ok v ↔
      after? state (tokens.map (·.2)) = some ([], .more v) := by
  induction tokens generalizing state with
  | nil =>
    unfold readTokens
    split
    · simp [after?]
    · rename_i stack expected hnot
      refine iff_of_false (by simp) fun hstate => ?_
      cases Option.some.inj hstate
      exact hnot v rfl rfl
  | cons token rest ih =>
    obtain ⟨position, token⟩ := token
    rw [readTokens, List.map_cons, after?]
    cases hnext : advance? state.1 token state.2 with
    | none => simp
    | some step =>
      cases step with
      | ok next => exact ih
      | error fault => simp

end Read

/-! Faults. -/

section Fault
variable {stack : List Frame} {token : Token} {expected : Expectation} {fault : Fault}

theorem startValue?_eq_error (h : startValue? stack token = some (.error fault)) :
    token = .badString fault ∨ token = .badScalar fault := by
  cases token <;> cases h
  · exact .inl rfl
  · exact .inr rfl

theorem startName?_eq_error {fields : Record Value}
    (h : startName? stack fields token = some (.error fault)) : token = .badString fault := by
  cases token <;> cases h
  rfl

/-- A fault is one of the token, and that of a number where a value is expected. -/
theorem advance?_eq_error (h : advance? stack token expected = some (.error fault)) :
    token = .badString fault ∨ token = .badScalar fault ∧ expected.IsValue := by
  cases expected with
  | value => exact (startValue?_eq_error h).imp_right fun hscalar => ⟨hscalar, trivial⟩
  | firstItem =>
    simp only [advance?] at h
    split at h
    · cases h
    · exact (startValue?_eq_error h).imp_right fun hscalar => ⟨hscalar, trivial⟩
  | name fields => exact .inl (startName?_eq_error h)
  | firstName =>
    simp only [advance?] at h
    split at h
    · cases h
    · exact .inl (startName?_eq_error h)
  | colon fields name =>
    simp only [advance?] at h
    split at h <;> cases h
  | more v =>
    obtain ⟨next, -, hok⟩ := Option.map_eq_some_iff.mp h
    cases hok

theorem advance?_badScalar_of_isValue (h : expected.IsValue) (stack : List Frame) (fault : Fault) :
    advance? stack (.badScalar fault) expected = some (.error fault) := by
  cases expected <;> first | rfl | cases h

end Fault

section Read
variable {ending : Nat} {state : State} {tokens : List (Nat × Token)} {fault : Numeral.IntFault}

/-- The reader stops at a number that cannot be converted if it comes to it. -/
theorem readTokens_eq_number_iff (hstrings : ∀ p, (p, .badString (.number fault)) ∉ tokens) :
    readTokens ending state tokens = .error (.number fault) ↔
      ∃ before position after next,
        tokens = before ++ (position, .badScalar (.number fault)) :: after ∧
          after? state (before.map (·.2)) = some next ∧ next.2.IsValue := by
  induction tokens generalizing state with
  | nil =>
    refine iff_of_false ?_ (by simp)
    unfold readTokens
    split <;> simp
  | cons first rest ih =>
    obtain ⟨position, token⟩ := first
    have hrest (next : State) := @ih next fun p hp => hstrings p (List.mem_cons_of_mem _ hp)
    constructor
    · intro h
      rw [readTokens] at h
      cases hnext : advance? state.1 token state.2 with
      | none =>
        rw [hnext] at h
        cases h
      | some step =>
        rw [hnext] at h
        cases step with
        | ok next =>
          obtain ⟨before, p, after, last, rfl, hafter, hvalue⟩ := (hrest next).mp h
          refine ⟨(position, token) :: before, p, after, last, rfl, ?_, hvalue⟩
          rw [List.map_cons, after?, hnext]
          exact hafter
        | error found =>
          cases h
          rcases advance?_eq_error hnext with rfl | ⟨rfl, hvalue⟩
          · exact absurd List.mem_cons_self (hstrings position)
          · exact ⟨[], position, rest, state, rfl, rfl, hvalue⟩
    · rintro ⟨before, p, after, last, htokens, hafter, hvalue⟩
      cases before with
      | nil =>
        cases htokens
        cases hafter
        rw [readTokens, advance?_badScalar_of_isValue hvalue]
      | cons first before =>
        cases htokens
        obtain ⟨next, hnext, hafter⟩ := after?_cons_eq_some hafter
        rw [readTokens, hnext]
        exact (hrest next).mpr ⟨before, p, after, last, rfl, hafter, hvalue⟩

end Read

/-- A text is JSON text of a value if its tokens are those of the value. A mark of the byte order is
no part of any. -/
def IsTextOf (text : List Char) (v : Value) : Prop :=
  text.head? ≠ some '\ufeff' ∧ Written v ((tokens 0 text).map (·.2))

theorem read_eq_ok_iff {text : List Char} {v : Value} :
    read text = .ok v ↔ IsTextOf text v := by
  unfold read IsTextOf
  split
  · rename_i hmark
    simp [hmark]
  · rename_i hmark
    rw [readTokens_eq_ok_iff, after?_eq_some_iff]
    simp [hmark]

end DocumentApi.Json
