import Vortek.CheckedInt64
import Vortek.Dispatcher

namespace Vortek

open CallScript DecimalText

/-!
# The options of SET

`SetItems` is the grammar of what may follow the key and the value: NX, XX, EX
with an operand and PX with an operand, in any order and any number.  The flag
loop of the handler accepts exactly this language, and its result depends only
on which items occur and on the last of EX and PX.
-/

/-- One item of the option list. -/
inductive SetItem where
  | nx
  | xx
  | ex (secs : Int64)
  | px (ms : Int64)
  deriving DecidableEq, Repr

namespace SetItem

/-- EX and PX. -/
def isTimed : SetItem → Bool
  | .nx | .xx => false
  | .ex _ | .px _ => true

/-- The duration that an item asks for, in nanoseconds. -/
def nanoseconds : SetItem → Int
  | .nx | .xx => 0
  | .ex secs => secs.toInt * 1000000000
  | .px ms => ms.toInt * 1000000

/-- The duration as the handler keeps it, in milliseconds. -/
def ttl : SetItem → Int64
  | .nx | .xx => 0
  | .ex secs => secs * 1000
  | .px ms => ms

/-- What an item changes in the options read so far. -/
def apply (options : SetOptions) : SetItem → SetOptions
  | .nx => { options with nx := true }
  | .xx => { options with xx := true }
  | .ex secs => { options with ttl := secs * 1000 }
  | .px ms => { options with ttl := ms }

end SetItem

/--
The option lists and their items.  The token after EX or PX is always its
operand, whatever it looks like.
-/
inductive SetItems : List Bytes → List SetItem → Prop where
  | nil :
      SetItems [] []
  | nx
      {flag : Bytes}
      {rest : List Bytes}
      {items : List SetItem}
      (named : upper flag = ascii "NX")
      (later : SetItems rest items) :
      SetItems (flag :: rest) (.nx :: items)
  | xx
      {flag : Bytes}
      {rest : List Bytes}
      {items : List SetItem}
      (named : upper flag = ascii "XX")
      (later : SetItems rest items) :
      SetItems (flag :: rest) (.xx :: items)
  | ex
      {flag operand : Bytes}
      {secs : Int64}
      {rest : List Bytes}
      {items : List SetItem}
      (named : upper flag = ascii "EX")
      (read : Int64Text operand secs)
      (positive : 0 < secs.toInt)
      (later : SetItems rest items) :
      SetItems (flag :: operand :: rest) (.ex secs :: items)
  | px
      {flag operand : Bytes}
      {ms : Int64}
      {rest : List Bytes}
      {items : List SetItem}
      (named : upper flag = ascii "PX")
      (read : Int64Text operand ms)
      (positive : 0 < ms.toInt)
      (later : SetItems rest items) :
      SetItems (flag :: operand :: rest) (.px ms :: items)

/-- The item that decides about the deadline. -/
def lastTimed (items : List SetItem) : Option SetItem :=
  (items.filter SetItem.isTimed).getLast?

section Language

variable {flags : List Bytes} {items : List SetItem}
variable {options : SetOptions}

theorem expireTime_eq_ok_iff
    {text : Bytes}
    {amount : Int64} :
    expireTime text = .ok amount ↔
      Int64Text text amount ∧ 0 < amount.toInt := by
  unfold expireTime
  rw [← wholeInt64?_eq_some_iff]
  cases wholeInt64? text with
  | none =>
      exact iff_of_false (by simp) fun both => by cases both.1
  | some read =>
      by_cases low : read ≤ 0
      · have small : read.toInt ≤ 0 := Int64.le_iff_toInt_le.mp low
        simp only [low, if_true, reduceCtorEq, Option.some.injEq,
          false_iff, not_and, not_lt]
        rintro rfl
        exact small
      · have large : 0 < read.toInt := by
          by_contra small
          exact low (Int64.le_iff_toInt_le.mpr (not_lt.mp small))
        simp only [low, if_false, Except.ok.injEq, Option.some.injEq]
        constructor
        · rintro rfl
          exact ⟨rfl, large⟩
        · exact fun both => both.1

/-- The flag loop reads every list of the grammar to its end. -/
theorem SetItems.parse
    (grammar : SetItems flags items)
    (options : SetOptions) :
    parseSetFlags flags options =
      .ok (items.foldl SetItem.apply options) := by
  induction grammar generalizing options with
  | nil =>
      rfl
  | nx named later inductionHypothesis =>
      rw [parseSetFlags.eq_def]
      simp only [if_pos named]
      exact inductionHypothesis _
  | xx named later inductionHypothesis =>
      rw [parseSetFlags.eq_def]
      simp only [named]
      rw [if_neg (by decide), if_pos trivial]
      exact inductionHypothesis _
  | ex named read positive later inductionHypothesis =>
      have amount := expireTime_eq_ok_iff.mpr ⟨read, positive⟩
      rw [parseSetFlags, named, if_neg (by decide), if_neg (by decide),
        if_pos rfl]
      simp only [amount]
      exact inductionHypothesis _
  | px named read positive later inductionHypothesis =>
      have amount := expireTime_eq_ok_iff.mpr ⟨read, positive⟩
      rw [parseSetFlags, named, if_neg (by decide), if_neg (by decide),
        if_neg (by decide), if_pos rfl]
      simp only [amount]
      exact inductionHypothesis _

/-- What the flag loop reads to its end is in the grammar. -/
theorem exists_setItems_of_parse
    {result : SetOptions}
    (parsed : parseSetFlags flags options = .ok result) :
    ∃ items, SetItems flags items := by
  fun_induction parseSetFlags flags options with
  | case1 options =>
      exact ⟨[], .nil⟩
  | case2 options flag rest named inductionHypothesis =>
      obtain ⟨items, later⟩ := inductionHypothesis parsed
      exact ⟨_, .nx named later⟩
  | case3 options flag rest _ named inductionHypothesis =>
      obtain ⟨items, later⟩ := inductionHypothesis parsed
      exact ⟨_, .xx named later⟩
  | case6 options flag _ _ named operand later secs amount
      inductionHypothesis =>
      obtain ⟨read, positive⟩ := expireTime_eq_ok_iff.mp amount
      obtain ⟨items, later⟩ := inductionHypothesis parsed
      exact ⟨_, .ex named read positive later⟩
  | case9 options flag _ _ _ named operand later ms amount
      inductionHypothesis =>
      obtain ⟨read, positive⟩ := expireTime_eq_ok_iff.mp amount
      obtain ⟨items, later⟩ := inductionHypothesis parsed
      exact ⟨_, .px named read positive later⟩
  | case4 | case5 | case7 | case8 | case10 =>
      cases parsed

/-- The durations of the grammar are positive. -/
theorem SetItems.positive
    (grammar : SetItems flags items)
    {item : SetItem}
    (member : item ∈ items)
    (timed : item.isTimed = true) :
    0 < item.nanoseconds := by
  induction grammar with
  | nil =>
      cases member
  | nx _ _ inductionHypothesis | xx _ _ inductionHypothesis =>
      rcases List.mem_cons.mp member with rfl | later
      · cases timed
      · exact inductionHypothesis later
  | ex _ _ positive _ inductionHypothesis
  | px _ _ positive _ inductionHypothesis =>
      rcases List.mem_cons.mp member with rfl | later
      · simp only [SetItem.nanoseconds]
        omega
      · exact inductionHypothesis later

end Language

section Options

variable {items : List SetItem} {options : SetOptions}

theorem nx_foldl :
    (items.foldl SetItem.apply options).nx =
      (options.nx || decide (SetItem.nx ∈ items)) := by
  induction items generalizing options with
  | nil =>
      simp
  | cons item later inductionHypothesis =>
      rw [List.foldl_cons, inductionHypothesis]
      cases item <;> simp [SetItem.apply]

theorem xx_foldl :
    (items.foldl SetItem.apply options).xx =
      (options.xx || decide (SetItem.xx ∈ items)) := by
  induction items generalizing options with
  | nil =>
      simp
  | cons item later inductionHypothesis =>
      rw [List.foldl_cons, inductionHypothesis]
      cases item <;> simp [SetItem.apply]

/-- The duration is that of the last item that has one. -/
theorem ttl_foldl :
    (items.foldl SetItem.apply options).ttl =
      ((lastTimed items).map SetItem.ttl).getD options.ttl := by
  induction items using List.reverseRecOn with
  | nil =>
      rfl
  | append_singleton earlier item inductionHypothesis =>
      rw [List.foldl_append, List.foldl_cons, List.foldl_nil, lastTimed,
        List.filter_append]
      cases item with
      | nx | xx =>
          simpa [SetItem.apply, SetItem.isTimed, lastTimed] using
            inductionHypothesis
      | ex secs | px ms =>
          simp [SetItem.apply, SetItem.isTimed, SetItem.ttl]

/-- The options do not depend on the order, with one duration at most. -/
theorem foldl_apply_eq_of_perm
    {others : List SetItem}
    (reordered : items.Perm others)
    (single : (items.filter SetItem.isTimed).length ≤ 1) :
    items.foldl SetItem.apply options =
      others.foldl SetItem.apply options := by
  have timed :
      items.filter SetItem.isTimed = others.filter SetItem.isTimed := by
    have permuted := reordered.filter SetItem.isTimed
    match shape : items.filter SetItem.isTimed with
    | [] =>
        rw [shape] at permuted
        exact (List.nil_perm.mp permuted).symm
    | [item] =>
        rw [shape] at permuted
        exact List.singleton_perm.mp permuted
    | first :: second :: more =>
        rw [shape] at single
        simp at single
  have ttl :
      (items.foldl SetItem.apply options).ttl =
        (others.foldl SetItem.apply options).ttl := by
    rw [ttl_foldl, ttl_foldl, lastTimed, lastTimed, timed]
  have nx :
      (items.foldl SetItem.apply options).nx =
        (others.foldl SetItem.apply options).nx := by
    simp only [nx_foldl, reordered.mem_iff]
  have xx :
      (items.foldl SetItem.apply options).xx =
        (others.foldl SetItem.apply options).xx := by
    simp only [xx_foldl, reordered.mem_iff]
  calc
    items.foldl SetItem.apply options =
        ⟨_, _, _⟩ := rfl
    _ = others.foldl SetItem.apply options := by
      rw [ttl, nx, xx]

end Options

section Storing

variable {item : SetItem} {now : TimePoint}

/-- The conversion to milliseconds is exact for a duration in range. -/
theorem toInt_ttl_of_small
    (nonnegative : 0 ≤ item.nanoseconds)
    (small : item.nanoseconds < 2 ^ 63) :
    item.ttl.toInt * 1000000 = item.nanoseconds := by
  cases item with
  | nx | xx =>
      rfl
  | ex secs =>
      have thousand : (1000 : Int64).toInt = 1000 :=
        rfl
      simp only [SetItem.nanoseconds] at nonnegative small
      have inRange :
          InInt64Range (secs.toInt * (1000 : Int64).toInt) := by
        rw [thousand]
        constructor <;> omega
      rw [SetItem.ttl, CheckedInt64.toInt_mul_of_inRange inRange,
        thousand, SetItem.nanoseconds]
      omega
  | px ms =>
      rfl

/-- The deadline that the store computes is exact for a duration in range. -/
theorem toInt_deadlineAfter_ttl
    (nonnegative : 0 ≤ item.nanoseconds)
    (small : item.nanoseconds < 2 ^ 63)
    (inRange : now.toInt + item.nanoseconds < 2 ^ 63) :
    (deadlineAfter now item.ttl).toInt =
      now.toInt + item.nanoseconds := by
  have exact := toInt_ttl_of_small nonnegative small
  have above := now.le_toInt
  rw [toInt_deadlineAfter, exact] <;> omega

end Storing

/-- SET is not executed, because of its condition on the key. -/
def Suppressed
    (items : List SetItem)
    (live : Bool) :
    Prop :=
  (SetItem.nx ∈ items ∧ live = true) ∨
    (SetItem.xx ∈ items ∧ live = false)

instance (items : List SetItem) (live : Bool) :
    Decidable (Suppressed items live) :=
  inferInstanceAs (Decidable (_ ∨ _))

/--
The deadline of a value stored under these items, if the duration is small
enough not to overflow.
-/
def ExpiresBy
    (now : TimePoint)
    (items : List SetItem)
    (expiresAt : Option TimePoint) :
    Prop :=
  match lastTimed items with
  | none => expiresAt = none
  | some item =>
      item.nanoseconds < 2 ^ 63 →
      now.toInt + item.nanoseconds < 2 ^ 63 →
      ∃ deadline,
        expiresAt = some deadline ∧
          deadline.toInt = now.toInt + item.nanoseconds

/-- The reply of a SET that has stored its value. -/
def okReply : RespValue :=
  .simpleString (ascii "OK")

/-- SET with these options implements their grammar. -/
structure SetConforms
    (now : TimePoint)
    (backend : Backend)
    (key value : Bytes)
    (flags : List Bytes)
    (outcome : Except CppException RespValue × Backend) :
    Prop where
  accepted :
    (outcome.1 = .ok .null ∨ outcome.1 = .ok okReply) ↔
      ∃ items,
        SetItems flags items ∧
          ¬ (SetItem.nx ∈ items ∧ SetItem.xx ∈ items)
  refused :
    (¬ ∃ items,
        SetItems flags items ∧
          ¬ (SetItem.nx ∈ items ∧ SetItem.xx ∈ items)) →
    ∃ message, outcome = (.ok (.error message), backend)
  suppressed :
    ∀ items,
      SetItems flags items →
      ¬ (SetItem.nx ∈ items ∧ SetItem.xx ∈ items) →
      Suppressed items (backend.store.exists? now key) →
      outcome = (.ok .null, backend)
  stored :
    ∀ items,
      SetItems flags items →
      ¬ (SetItem.nx ∈ items ∧ SetItem.xx ∈ items) →
      ¬ Suppressed items (backend.store.exists? now key) →
      ∃ expiresAt,
        ExpiresBy now items expiresAt ∧
          outcome =
            (.ok okReply,
              { backend with
                store :=
                  ⟨backend.store.data.insert key
                    ⟨.string value, expiresAt⟩⟩ })
  /-- Another order of the items, spelled in any case. -/
  reordered :
    ∀ items others reorderedFlags,
      SetItems flags items →
      SetItems reorderedFlags others →
      items.Perm others →
      (items.filter SetItem.isTimed).length ≤ 1 →
      backend.dispatch now
          ⟨ascii "SET", key :: value :: reorderedFlags⟩ =
        outcome

section Setting

variable {now : TimePoint} {backend : Backend} {key value : Bytes}
variable {flags : List Bytes} {items : List SetItem}

/-- What SET does, once its flags are read. -/
theorem dispatch_set_of_parse
    {options : SetOptions}
    (parsed : parseSetFlags flags .initial = .ok options) :
    backend.dispatch now ⟨ascii "SET", key :: value :: flags⟩ =
      if options.nx && options.xx then
        (.ok (err
          "ERR XX and NX options at the same time are not compatible"),
          backend)
      else if options.nx && backend.store.exists? now key then
        (.ok .null, backend)
      else if options.xx && !backend.store.exists? now key then
        (.ok .null, backend)
      else
        (.ok okReply,
          { backend with
            store :=
              backend.store.set now key (.string value) options.ttl }) := by
  change backend.exec now
    (cmdSet ⟨ascii "SET", key :: value :: flags⟩) = _
  simp only [cmdSet, parsed]
  obtain ⟨ttl, nx, xx⟩ := options
  cases nx <;> cases xx <;>
    cases live : backend.store.exists? now key <;>
    simp [Backend.exec, Backend.step, live] <;>
    rfl

/-- What SET does with the items of its option list. -/
theorem dispatch_set_of_items
    (grammar : SetItems flags items) :
    backend.dispatch now ⟨ascii "SET", key :: value :: flags⟩ =
      if SetItem.nx ∈ items ∧ SetItem.xx ∈ items then
        (.ok (err
          "ERR XX and NX options at the same time are not compatible"),
          backend)
      else if Suppressed items (backend.store.exists? now key) then
        (.ok .null, backend)
      else
        (.ok okReply,
          { backend with
            store :=
              backend.store.set now key (.string value)
                (((lastTimed items).map SetItem.ttl).getD 0) }) := by
  rw [dispatch_set_of_parse (grammar.parse .initial)]
  simp only [nx_foldl, xx_foldl, ttl_foldl, SetOptions.initial,
    Bool.false_or, Bool.and_eq_true, decide_eq_true_eq,
    Bool.not_eq_true']
  by_cases both : SetItem.nx ∈ items ∧ SetItem.xx ∈ items
  · rw [if_pos both, if_pos both]
  · rw [if_neg both, if_neg both]
    by_cases taken :
        SetItem.nx ∈ items ∧ backend.store.exists? now key = true
    · have suppressed :
          Suppressed items (backend.store.exists? now key) :=
        Or.inl taken
      rw [if_pos taken, if_pos suppressed]
    · rw [if_neg taken]
      have either :
          Suppressed items (backend.store.exists? now key) ↔
            SetItem.xx ∈ items ∧
              backend.store.exists? now key = false :=
        or_iff_right taken
      simp only [either]

/-- A list outside the grammar is answered with an error. -/
theorem dispatch_set_of_not_items
    (outside : ¬ ∃ items, SetItems flags items) :
    ∃ message,
      backend.dispatch now ⟨ascii "SET", key :: value :: flags⟩ =
        (.ok (.error message), backend) := by
  change ∃ message, backend.exec now
    (cmdSet ⟨ascii "SET", key :: value :: flags⟩) = _
  simp only [cmdSet]
  cases parsed : parseSetFlags flags .initial with
  | ok options =>
      exact absurd (exists_setItems_of_parse parsed) outside
  | error reply =>
      rcases reply_of_parseSetFlags_error parsed with rfl | rfl
      · exact ⟨_, rfl⟩
      · exact ⟨_, rfl⟩

/-- The store keeps the deadline of the last EX or PX. -/
theorem expiresBy_set
    (grammar : SetItems flags items) :
    ∃ expiresAt,
      ExpiresBy now items expiresAt ∧
        backend.store.set now key (.string value)
            (((lastTimed items).map SetItem.ttl).getD 0) =
          ⟨backend.store.data.insert key ⟨.string value, expiresAt⟩⟩ := by
  refine ⟨_, ?_, rfl⟩
  unfold ExpiresBy
  cases last : lastTimed items with
  | none =>
      rfl
  | some item =>
      intro small inRange
      have member := List.mem_filter.mp (List.mem_of_getLast? last)
      have positive := grammar.positive member.1 member.2
      have exact := toInt_ttl_of_small positive.le small
      have longer : 0 < item.ttl := by
        refine Int64.lt_iff_toInt_lt.mpr ?_
        change 0 < item.ttl.toInt
        omega
      refine ⟨deadlineAfter now item.ttl, ?_,
        toInt_deadlineAfter_ttl positive.le small inRange⟩
      exact if_pos longer

end Setting

namespace Backend

/--
SET accepts exactly its grammar of options, stores the string with the deadline
of the last EX or PX unless NX or XX forbids it, and does not depend on the
order of the items.
-/
theorem dispatch_set_conforms
    (backend : Backend)
    (now : TimePoint)
    (key value : Bytes)
    (flags : List Bytes) :
    SetConforms now backend key value flags
      (backend.dispatch now
        ⟨ascii "SET", key :: value :: flags⟩) where
  accepted := by
    constructor
    · intro answered
      by_cases inside : ∃ items, SetItems flags items
      · obtain ⟨items, grammar⟩ := inside
        refine ⟨items, grammar, fun both => ?_⟩
        rw [dispatch_set_of_items grammar, if_pos both] at answered
        rcases answered with answered | answered <;> cases answered
      · obtain ⟨message, refused⟩ := dispatch_set_of_not_items inside
        rw [refused] at answered
        rcases answered with answered | answered <;> cases answered
    · rintro ⟨items, grammar, compatible⟩
      rw [dispatch_set_of_items grammar, if_neg compatible]
      by_cases suppressed :
          Suppressed items (backend.store.exists? now key)
      · rw [if_pos suppressed]
        exact Or.inl rfl
      · rw [if_neg suppressed]
        exact Or.inr rfl
  refused := by
    intro outside
    by_cases inside : ∃ items, SetItems flags items
    · obtain ⟨items, grammar⟩ := inside
      have both : SetItem.nx ∈ items ∧ SetItem.xx ∈ items := by
        by_contra compatible
        exact outside ⟨items, grammar, compatible⟩
      rw [dispatch_set_of_items grammar, if_pos both]
      exact ⟨_, rfl⟩
    · exact dispatch_set_of_not_items inside
  suppressed := by
    intro items grammar compatible suppressed
    rw [dispatch_set_of_items grammar, if_neg compatible,
      if_pos suppressed]
  stored := by
    intro items grammar compatible executed
    obtain ⟨expiresAt, deadline, stored⟩ := expiresBy_set grammar
    refine ⟨expiresAt, deadline, ?_⟩
    rw [dispatch_set_of_items grammar, if_neg compatible,
      if_neg executed, stored]
  reordered := by
    intro items others reorderedFlags grammar reorderedGrammar permuted
      single
    rw [dispatch_set_of_parse (grammar.parse .initial),
      dispatch_set_of_parse (reorderedGrammar.parse .initial),
      foldl_apply_eq_of_perm permuted single]

end Backend

end Vortek
