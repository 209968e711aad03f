import Mathlib.Algebra.BigOperators.Group.List.Basic
import Mathlib.Algebra.Order.Ring.Int
import Mathlib.Data.List.TakeWhile

/-! # Queues served from the front

Every member of a queue needs an amount, and only eligible members are served.
An arriving amount is given to the front member until its need is met, then to
the next one. The state of such a queue is determined by the amount served so
far; the lemmas relate that amount to the members that are done, to the member in
front, and to the eligible members that lead the queue.
-/

namespace ServiceQueue

variable {β : Type*}

/-- What the members of a list need together. -/
def volume (need : β → Int) (list : List β) : Int :=
  (list.map need).sum

@[simp] theorem volume_nil (need : β → Int) : volume need [] = 0 := rfl

@[simp] theorem volume_cons (need : β → Int) (x : β) (list : List β) :
    volume need (x :: list) = need x + volume need list := by
  simp [volume]

@[simp] theorem volume_append (need : β → Int) (first second : List β) :
    volume need (first ++ second) = volume need first + volume need second := by
  simp [volume]

theorem volume_nonneg {need : β → Int} {list : List β} (hneed : ∀ x ∈ list, 0 ≤ need x) :
    0 ≤ volume need list := by
  induction list with
  | nil => exact le_rfl
  | cons x rest ih =>
      rw [volume_cons]
      have hx := hneed x List.mem_cons_self
      have hrest := ih fun y hy => hneed y (List.mem_cons_of_mem x hy)
      omega

theorem volume_congr {need need' : β → Int} {list : List β}
    (heq : ∀ x ∈ list, need' x = need x) : volume need' list = volume need list := by
  unfold volume
  rw [List.map_congr_left heq]

/-- Of two ways to split one list, the second is at an element behind the first or
at one in front of it. -/
theorem split_or_split {first second front rest : List β} {x : β}
    (hsplit : first ++ second = front ++ x :: rest) :
    (∃ middle, front = first ++ middle ∧ second = middle ++ x :: rest) ∨
      ∃ middle, first = front ++ x :: middle := by
  rcases List.append_eq_append_iff.mp hsplit with ⟨middle, hfront, hrest⟩ | ⟨middle, hfirst, hrest⟩
  · exact Or.inl ⟨middle, hfront, hrest⟩
  · cases middle with
    | nil => exact Or.inl ⟨[], by simpa using hfirst.symm, by simpa using hrest.symm⟩
    | cons y middle =>
        obtain rfl : x = y := (List.cons.inj hrest).1
        exact Or.inr ⟨middle, hfirst⟩

variable (need : β → Int) (eligible : β → Prop)

/-- The eligible members in front of the first that is not. -/
def leading [DecidablePred eligible] (queue : List β) : List β :=
  queue.takeWhile fun x => eligible x

/-- The amount meets the need of `x`: it and all members in front of it are
eligible, and need no more than that together. -/
def Within (queue : List β) (amount : Int) (x : β) : Prop :=
  ∃ front rest, queue = front ++ x :: rest ∧ (∀ y ∈ front ++ [x], eligible y) ∧
    volume need (front ++ [x]) ≤ amount

/-- Of two queues that are served the same amounts, `x` in the first and `y` in the
second come to the front together: neither is done before the other is reached. -/
def Meet (first : List β) (x : β) (second : List β) (y : β) : Prop :=
  volume need first < volume need second + need y ∧
    volume need second < volume need first + need x

/-- The queue after `amount` has been served: `served` are done, `waiting` still
wait, and `left` is what each of them needs now. -/
structure Served (left : β → Int) (served waiting : List β) (amount : Int) : Prop where
  done : ∀ x ∈ served, eligible x ∧ left x = 0
  behind : ∀ x ∈ waiting.tail, left x = need x
  front : ∀ x ∈ waiting.head?, left x = need x ∨ eligible x ∧ 0 < left x ∧ left x ≤ need x
  amount_eq : amount = volume need (served ++ waiting) - volume left waiting

variable {need eligible}

theorem served_start (queue : List β) : Served need eligible need [] queue 0 :=
  ⟨by simp, fun _ _ => rfl, fun _ _ => Or.inl rfl, by simp⟩

namespace Served

variable {left left' : β → Int} {served waiting rest : List β} {head x : β} {amount : Int}

/-- Serving the front member a part of what it needs. -/
theorem serve_part (hserved : Served need eligible left served (head :: rest) amount)
    {part : Int} (hpart : 0 < part) (hlt : part < left head) (helig : eligible head)
    (hhead : left' head = left head - part) (hsame : ∀ y ∈ served ++ rest, left' y = left y) :
    Served need eligible left' served (head :: rest) (amount + part) := by
  have hrest : ∀ y ∈ rest, left' y = left y := fun y hy =>
    hsame y (List.mem_append_right _ hy)
  refine ⟨?_, ?_, ?_, ?_⟩
  · intro y hy
    rw [hsame y (List.mem_append_left _ hy)]
    exact hserved.done y hy
  · intro y hy
    rw [hrest y hy]
    exact hserved.behind y hy
  · intro y hy
    obtain rfl : head = y := by simpa using hy
    refine Or.inr ⟨helig, by omega, ?_⟩
    rcases hserved.front head rfl with heq | ⟨_, _, hle⟩ <;> omega
  · have hamount := hserved.amount_eq
    rw [volume_append, volume_cons, volume_cons] at hamount ⊢
    rw [volume_congr hrest, hhead]
    omega

/-- Serving the front member all it still needs. -/
theorem serve_rest (hserved : Served need eligible left served (head :: rest) amount)
    (helig : eligible head) (hhead : left' head = 0)
    (hsame : ∀ y ∈ served ++ rest, left' y = left y) :
    Served need eligible left' (served ++ [head]) rest (amount + left head) := by
  have hrest : ∀ y ∈ rest, left' y = left y := fun y hy =>
    hsame y (List.mem_append_right _ hy)
  refine ⟨?_, ?_, ?_, ?_⟩
  · intro y hy
    rcases List.mem_append.mp hy with hold | hnew
    · rw [hsame y (List.mem_append_left _ hold)]
      exact hserved.done y hold
    · rw [List.mem_singleton.mp hnew]
      exact ⟨helig, hhead⟩
  · intro y hy
    have hmem := List.mem_of_mem_tail hy
    rw [hrest y hmem]
    exact hserved.behind y hmem
  · intro y hy
    have hmem := List.mem_of_mem_head? hy
    rw [hrest y hmem]
    exact Or.inl (hserved.behind y hmem)
  · have hamount := hserved.amount_eq
    simp only [volume_append, volume_cons, volume_nil] at hamount ⊢
    rw [volume_congr hrest]
    omega

/-- What the front member has been served of the amount. -/
theorem amount_eq_front (hserved : Served need eligible left served (head :: rest) amount) :
    amount = volume need served + (need head - left head) := by
  have hamount := hserved.amount_eq
  have hrest : volume left rest = volume need rest := volume_congr hserved.behind
  rw [volume_append, volume_cons, volume_cons, hrest] at hamount
  omega

theorem volume_served_le (hserved : Served need eligible left served waiting amount) :
    volume need served ≤ amount := by
  cases waiting with
  | nil =>
      have hamount := hserved.amount_eq
      simp only [List.append_nil, volume_nil] at hamount
      omega
  | cons head rest =>
      have hamount := hserved.amount_eq_front
      rcases hserved.front head rfl with heq | ⟨_, _, hle⟩ <;> omega

theorem left_le (hserved : Served need eligible left served waiting amount)
    (hx : x ∈ waiting) : left x ≤ need x := by
  cases waiting with
  | nil => exact absurd hx List.not_mem_nil
  | cons head rest =>
      rcases List.mem_cons.mp hx with rfl | hrest
      · rcases hserved.front x rfl with heq | ⟨_, _, hle⟩
        · exact heq.le
        · exact hle
      · exact (hserved.behind x hrest).le

variable (hneed : ∀ x, eligible x → 0 < need x)

include hneed

theorem left_pos_of_waiting (hserved : Served need eligible left served waiting amount)
    (hx : x ∈ waiting) (helig : eligible x) : 0 < left x := by
  have hpos := hneed x helig
  cases waiting with
  | nil => exact absurd hx List.not_mem_nil
  | cons head rest =>
      rcases List.mem_cons.mp hx with rfl | hrest
      · rcases hserved.front x rfl with heq | ⟨_, hleft, _⟩
        · exact hpos.trans_eq heq.symm
        · exact hleft
      · exact hpos.trans_eq (hserved.behind x hrest).symm

/-- An eligible member with nothing left is within the amount served. -/
theorem within_of_empty (hserved : Served need eligible left served waiting amount)
    (hx : x ∈ served ++ waiting) (helig : eligible x) (hempty : left x = 0) :
    Within need eligible (served ++ waiting) amount x := by
  have hdone : x ∈ served := by
    rcases List.mem_append.mp hx with hdone | hwaiting
    · exact hdone
    · exact absurd hempty (hserved.left_pos_of_waiting hneed hwaiting helig).ne'
  obtain ⟨front, back, rfl⟩ := List.append_of_mem hdone
  refine ⟨front, back ++ waiting, by simp, ?_, ?_⟩
  · intro y hy
    refine (hserved.done y ?_).1
    simp only [List.mem_append, List.mem_cons] at hy ⊢
    tauto
  · have hle := hserved.volume_served_le
    have hback : 0 ≤ volume need back := volume_nonneg fun y hy =>
      (hneed y (hserved.done y (by simp [hy])).1).le
    simp only [volume_append, volume_cons, volume_nil] at hle ⊢
    omega

/-- A member that still waits, with all in front of it eligible, was not reached
by the amount served; and there is something to serve in front. -/
theorem lt_of_within (hserved : Served need eligible left served waiting amount) {bound : Int}
    (hwithin : Within need eligible (served ++ waiting) bound x) (hleft : 0 < left x) :
    amount < bound ∧ ∃ head, waiting.head? = some head ∧ eligible head ∧ 0 < left head := by
  obtain ⟨front, back, hsplit, heligible, hbound⟩ := hwithin
  -- the served members are a beginning of those in front of `x`
  obtain ⟨middle, rfl, hwaiting⟩ : ∃ middle, front = served ++ middle ∧
      waiting = middle ++ x :: back := by
    rcases split_or_split hsplit with hsplit | ⟨middle, rfl⟩
    · exact hsplit
    · have hzero := (hserved.done x (by simp)).2
      omega
  cases middle with
  | nil =>
      rw [List.nil_append] at hwaiting
      subst hwaiting
      have hamount := hserved.amount_eq_front
      have hfront : eligible x := heligible x (by simp)
      simp only [List.append_nil, volume_append, volume_cons, volume_nil] at hbound
      exact ⟨by omega, x, rfl, hfront, hleft⟩
  | cons head middle =>
      rw [List.cons_append] at hwaiting
      subst hwaiting
      have hamount := hserved.amount_eq_front
      have hhead : eligible head := heligible head (by simp)
      have hheadLeft := hserved.left_pos_of_waiting hneed List.mem_cons_self hhead
      have hmiddle : 0 ≤ volume need middle := volume_nonneg fun y hy =>
        (hneed y (heligible y (by simp [hy]))).le
      have hx := hneed x (heligible x (by simp))
      simp only [volume_append, volume_cons, volume_nil] at hbound
      exact ⟨by omega, head, rfl, hhead, hheadLeft⟩

/-- The leading members bound what is served, and while they need more, one of
them is in front. -/
theorem amount_le_leading [DecidablePred eligible]
    (hserved : Served need eligible left served waiting amount) :
    amount ≤ volume need (leading eligible (served ++ waiting)) ∧
      (amount < volume need (leading eligible (served ++ waiting)) →
        ∃ head, waiting.head? = some head ∧ eligible head ∧ 0 < left head) := by
  have hleading : leading eligible (served ++ waiting) =
      served ++ leading eligible waiting :=
    List.takeWhile_append_of_pos fun y hy => by simpa using (hserved.done y hy).1
  rw [hleading, volume_append]
  cases waiting with
  | nil =>
      have hamount := hserved.amount_eq
      simp only [List.append_nil, volume_nil, leading, List.takeWhile_nil] at hamount ⊢
      exact ⟨by omega, fun hlt => by omega⟩
  | cons head rest =>
      have hamount := hserved.amount_eq_front
      by_cases hhead : eligible head
      · have hpos := hneed head hhead
        have hfront := hserved.front head rfl
        have hrest : 0 ≤ volume need (leading eligible rest) := volume_nonneg fun y hy =>
          (hneed y (by simpa using List.mem_takeWhile_imp hy)).le
        have hcons : leading eligible (head :: rest) = head :: leading eligible rest :=
          List.takeWhile_cons_of_pos (by simpa using hhead)
        rw [hcons, volume_cons]
        refine ⟨by omega, fun _ => ⟨head, rfl, hhead, by omega⟩⟩
      · have hstop : leading eligible (head :: rest) = [] :=
          List.takeWhile_cons_of_neg (by simpa using hhead)
        have huntouched : left head = need head := by
          rcases hserved.front head rfl with heq | ⟨helig, _, _⟩
          · exact heq
          · exact absurd helig hhead
        rw [hstop, volume_nil]
        exact ⟨by omega, fun hlt => by omega⟩

section Positive

variable {front back : List β}

/-- A queue of which less is served than `x` and those in front of it need still
holds `x` and all behind it. -/
theorem waiting_of_lt (hserved : Served need eligible left served waiting amount)
    (hsplit : served ++ waiting = front ++ x :: back)
    (hlt : amount < volume need front + need x) :
    ∃ middle, front = served ++ middle ∧ waiting = middle ++ x :: back := by
  rcases split_or_split hsplit with hwaits | ⟨middle, rfl⟩
  · exact hwaits
  · have hle := hserved.volume_served_le
    have hmiddle : 0 ≤ volume need middle := volume_nonneg fun y hy =>
      (hneed y (hserved.done y (by simp [hy])).1).le
    rw [volume_append, volume_cons] at hle
    omega

/-- The member in front, once all in front of `x` are served and `x` is not. -/
theorem head_eq_of_volume_le (hserved : Served need eligible left served (head :: rest) amount)
    (hsplit : served ++ head :: rest = front ++ x :: back) (heligible : ∀ y ∈ front, eligible y)
    (hle : volume need front ≤ amount) (hlt : amount < volume need front + need x)
    (hleft : 0 < left head) : head = x := by
  obtain ⟨middle, rfl, hwaiting⟩ := hserved.waiting_of_lt hneed hsplit hlt
  cases middle with
  | nil => exact (List.cons.inj hwaiting).1
  | cons y middle =>
      obtain rfl : head = y := (List.cons.inj hwaiting).1
      have hamount := hserved.amount_eq_front
      have hmiddle : 0 ≤ volume need middle := volume_nonneg fun y hy =>
        (hneed y (heligible y (by simp [hy]))).le
      rw [volume_append, volume_cons] at hle
      omega

/-- While some in front of `x` still wait, serving the front member does not reach
`x`. -/
theorem add_le_volume_of_lt (hserved : Served need eligible left served (head :: rest) amount)
    (hsplit : served ++ head :: rest = front ++ x :: back) (heligible : ∀ y ∈ front, eligible y)
    (hx : eligible x) (hlt : amount < volume need front) {part : Int} (hpart : part ≤ left head) :
    amount + part ≤ volume need front := by
  have hpos := hneed x hx
  obtain ⟨middle, rfl, hwaiting⟩ := hserved.waiting_of_lt hneed hsplit (by omega)
  have hamount := hserved.amount_eq_front
  cases middle with
  | nil =>
      have hle := hserved.volume_served_le
      rw [List.append_nil] at hlt
      omega
  | cons y middle =>
      obtain rfl : head = y := (List.cons.inj hwaiting).1
      have hmiddle : 0 ≤ volume need middle := volume_nonneg fun y hy =>
        (hneed y (heligible y (by simp [hy]))).le
      rw [volume_append, volume_cons]
      omega

end Positive

omit hneed in
/-- The members in front of two queues that were served the same amount meet. -/
theorem meet_of_heads {left₁ left₂ : β → Int} {served₁ served₂ rest₁ rest₂ : List β} {x y : β}
    (hfirst : Served need eligible left₁ served₁ (x :: rest₁) amount)
    (hsecond : Served need eligible left₂ served₂ (y :: rest₂) amount)
    (hx : 0 < left₁ x) (hy : 0 < left₂ y) : Meet need served₁ x served₂ y := by
  have hfirstAmount := hfirst.amount_eq_front
  have hsecondAmount := hsecond.amount_eq_front
  have hfirstLe := hfirst.volume_served_le
  have hsecondLe := hsecond.volume_served_le
  constructor <;> omega

end Served

end ServiceQueue
