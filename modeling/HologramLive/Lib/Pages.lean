import HologramLive.Lib.Tables
namespace Pages
open Tables List
variable {α γ : Type}

-- A page of the rows after a cursor, which is the key of a row read before or any
-- other key.
def pageAfter (key : α → γ) (before : γ → γ → Bool) (rows : List α) (after : Option γ) (size : Nat) : List α :=
  (rows.filter fun row => after.all fun last => before last (key row)).take size

-- Rows in an order that a key decides.
structure Sorted (key : α → γ) (before : γ → γ → Bool) (rows : List α) : Prop where
  ordered : rows.Pairwise fun a b => before (key a) (key b) = true
  asymmetric : ∀ a b,before a b = true → before b a = false
  transitive : ∀ a b c,before a b = true → before b c = true → before a c = true
  irreflexive : ∀ a,before a a = false

variable {key : α → γ} {before : γ → γ → Bool} {rows : List α}

theorem pageAfter_take (sorted : Sorted key before rows) (count size : Nat) :
    pageAfter key before rows ((rows.take count).getLast?.map key) size = (rows.drop count).take size := by
  unfold pageAfter
  rw [←after_last sorted.ordered (fun a b => sorted.asymmetric (key a) (key b)) (fun a => sorted.irreflexive (key a)) count]
  simp only [Option.all_map]

theorem Sorted.filter (sorted : Sorted key before rows) (kept : α → Bool) : Sorted key before (rows.filter kept) :=
  ⟨sorted.ordered.filter kept,sorted.asymmetric,sorted.transitive,sorted.irreflexive⟩

theorem Sorted.of_keys {κ : Type} [Ord κ] [Std.TransOrd κ] [Std.LawfulEqOrd κ] {key : α → κ}
    (ordered : rows.Pairwise fun a b => (compare (key a) (key b) == .lt) = true) :
    Sorted key (fun a b => compare a b == .lt) rows where
  ordered := ordered
  asymmetric _ _ := before_asymmetric
  transitive a b c first second := by
    have left : compare a b = .lt := by simpa using first
    have right : compare b c = .lt := by simpa using second
    simp [Std.TransCmp.lt_trans left right]
  irreflexive := before_irreflexive

theorem pageAfter_within (sorted : Sorted key before rows) (later : before first last = true) (size : Nat) :
    pageAfter key before rows (some last) size =
      pageAfter key before (rows.filter fun row => before first (key row)) (some last) size := by
  unfold pageAfter
  congr 1
  rw [filter_filter]
  refine filter_congr fun row _ => ?_
  simp only [Option.all_some]
  cases after : before last (key row) with
  | false => rfl
  | true => exact (sorted.transitive first last (key row) later after).symm

theorem after_page (sorted : Sorted key before rows) {cursor : Option γ}
    (behind : (rows.filter fun row => cursor.all fun last => before last (key row)) = rest) {count : Nat}
    (got : (rest.take count).getLast? = some last) : (rows.filter fun row => before (key last) (key row)) = rest.drop count := by
  have among : last ∈ rest := mem_of_mem_take (mem_of_getLast? got)
  rw [←behind] at among
  have later := (mem_filter.mp among).2
  have ordered : rest.Pairwise fun a b => before (key a) (key b) = true := behind ▸ sorted.ordered.filter _
  have within := after_last ordered (fun a b => sorted.asymmetric (key a) (key b)) (fun a => sorted.irreflexive (key a)) count
  rw [got] at within
  rw [←within,←behind,filter_filter]
  refine filter_congr fun row _ => ?_
  cases after : before (key last) (key row) with
  | false => simp [after]
  | true =>
    cases cursor with
    | none => simp [after]
    | some first => simp [after,sorted.transitive first (key last) (key row) later after]

def gather (limit : Nat) (objects : List α) : List α → List α × Bool
  | [] => (objects,false)
  | row :: rest => if objects.length = limit then (objects,true) else gather limit (objects ++ [row]) rest

section Gather
variable {limit : Nat} {objects rest : List α} {row : α}

theorem gather_full (full : objects.length = limit) : gather limit objects (row :: rest) = (objects,true) := if_pos full

theorem gather_more (room : ¬objects.length = limit) :
    gather limit objects (row :: rest) = gather limit (objects ++ [row]) rest := if_neg room

end Gather

theorem gather_append (limit : Nat) (objects left right : List α) : gather limit objects (left ++ right) =
      if (gather limit objects left).2 then gather limit objects left else gather limit (gather limit objects left).1 right := by
  induction left generalizing objects with
  | nil => rfl
  | cons row left ih =>
    rw [cons_append]
    by_cases full : objects.length = limit
    · rw [gather_full full,gather_full full]
      rfl
    · rw [gather_more full,gather_more full]
      exact ih (objects ++ [row])

theorem gather_grows (limit : Nat) (objects rows : List α) : objects <+: (gather limit objects rows).1 := by
  induction rows generalizing objects with
  | nil => exact prefix_rfl
  | cons row rest ih =>
    by_cases full : objects.length = limit
    · have same : (gather limit objects (row :: rest)).1 = objects := congrArg Prod.fst (gather_full full)
      exact ⟨[],by rw [append_nil,same]⟩
    · rw [gather_more full]
      exact (prefix_append objects [row]).trans (ih (objects ++ [row]))

theorem gather_all {limit : Nat} {objects rows : List α} (room : (gather limit objects rows).2 = false) :
    (gather limit objects rows).1 = objects ++ rows := by
  induction rows generalizing objects with
  | nil => exact (append_nil objects).symm
  | cons row rest ih =>
    by_cases full : objects.length = limit
    · rw [gather_full full] at room
      cases room
    · rw [gather_more full] at room ⊢
      rw [ih room,append_assoc]
      rfl

theorem drop_take_eq {size count : Nat} (short : ((rows.drop count).take size).length < size) :
    (rows.drop count).take size = rows.drop count := by
  rw [length_take] at short
  exact take_of_length_le (by omega)

-- A search that reads page after page, and ends with a hit or with a short page.
def search (hit : α → Bool) (page : Option γ → List α) (key : α → γ) (size : Nat) : Nat → Option γ → Bool
  | 0,_ => false
  | turns+1,after =>
    let got := page after
    if got.any hit then true
    else match got.getLast? with
      | some last => if got.length = size then search hit page key size turns (some (key last)) else false
      | none => false

theorem any_drop (hit : α → Bool) (count size : Nat) :
    (rows.drop count).any hit = (((rows.drop count).take size).any hit || (rows.drop (count+size)).any hit) := by
  rw [←drop_drop,←any_append,take_append_drop]

theorem getLast?_take_add {count size : Nat} (got : ((rows.drop count).take size).getLast? = some last) :
    (rows.take (count+size)).getLast? = some last := by
  rw [take_add,List.getLast?_append,got]
  rfl

theorem search_rows (sorted : Sorted key before rows) (hit : α → Bool) (positive : 0 < size) {turns count : Nat}
    (enough : rows.length-count < turns) :
    search hit (fun after => pageAfter key before rows after size) key size turns ((rows.take count).getLast?.map key) =
      (rows.drop count).any hit := by
  induction turns generalizing count with
  | zero => omega
  | succ turns ih =>
    unfold search
    rw [pageAfter_take sorted]
    dsimp only
    split
    · rename_i found
      rw [any_drop hit count size,found]
      rfl
    · rename_i missed
      have rest : (rows.drop count).any hit = (rows.drop (count+size)).any hit := by
        rw [any_drop hit count size,eq_false_of_ne_true missed,Bool.false_or]
      split
      · rename_i last got
        have cursor := getLast?_take_add got
        split
        · rename_i full; rw [length_take,length_drop] at full
          rw [rest,←ih (by omega : rows.length-(count+size) < turns),cursor]; rfl
        · rename_i short
          have below : ((rows.drop count).take size).length < size := by
            have := length_take_le size (rows.drop count)
            omega
          rw [←drop_take_eq below]; exact (eq_false_of_ne_true missed).symm
      · rename_i got
        have emptied := List.getLast?_eq_none_iff.mp got
        have below : ((rows.drop count).take size).length < size := by rw [emptied]; exact positive
        rw [←drop_take_eq below,emptied]; rfl

-- A page of at most `limit` rows, and the cursor for the next one when one more row
-- was there to read.
def trimmed (key : α → γ) (limit : Nat) (got : List α) : List α × Option γ :=
  let items := got.take limit
  (items,if limit < got.length then items.getLast?.map key else none)

def chase (page : Option γ → List α × Option γ) : Nat → Option γ → Option (List α)
  | 0,_ => none
  | turns+1,after =>
    let (items,next) := page after
    match next with
    | none => some items
    | some last => (chase page turns (some last)).map (items ++ ·)

theorem trimmed_last (more : limit < got.length) :
    (trimmed key limit got).2 = (got.take limit).getLast?.map key := if_pos more

theorem trimmed_whole (whole : got.length ≤ limit) : trimmed key limit got = (got,none) := by
  unfold trimmed
  dsimp only
  rw [take_of_length_le whole,if_neg (by omega)]

theorem chase_rows (sorted : Sorted key before rows) (positive : 0 < limit) {turns count : Nat}
    (enough : rows.length-count < turns) :
    chase (fun after => trimmed key limit (pageAfter key before rows after (limit+1))) turns
      ((rows.take count).getLast?.map key) = some (rows.drop count) := by
  induction turns generalizing count with
  | zero => omega
  | succ turns ih =>
    unfold chase
    rw [pageAfter_take sorted]
    dsimp only
    by_cases more : limit < ((rows.drop count).take (limit+1)).length
    · have bound := more
      rw [length_take,length_drop] at bound
      have first : ((rows.drop count).take (limit+1)).take limit = (rows.drop count).take limit := by
        rw [take_take,Nat.min_eq_left (by omega)]
      have taken : ((rows.drop count).take limit).getLast? ≠ none := by
        rw [ne_eq,List.getLast?_eq_none_iff,take_eq_nil_iff]
        rintro (none | none)
        · omega
        · have := congrArg length none
          simp at this
          omega
      obtain ⟨last,got⟩ := Option.ne_none_iff_exists'.mp taken
      rw [trimmed_last more,first,got]
      dsimp only [Option.map_some]
      have rest := ih (by omega : rows.length-(count+limit) < turns)
      rw [getLast?_take_add got,Option.map_some] at rest
      rw [rest,Option.map_some]
      show some ((trimmed key limit ((rows.drop count).take (limit+1))).1 ++ _) = _
      rw [show (trimmed key limit ((rows.drop count).take (limit+1))).1 = (rows.drop count).take limit from first,
        ←drop_drop,take_append_drop]
    · rw [trimmed_whole (by omega)]
      have below : ((rows.drop count).take (limit+1)).length < limit+1 := by omega
      rw [drop_take_eq below]

theorem after_row (sorted : Sorted key before rows) (split : rows = front ++ row :: rest) :
    (rows.filter fun other => before (key row) (key other)) = rest := by
  subst split
  obtain ⟨-,behind,earlier⟩ := pairwise_append.mp sorted.ordered
  have none : (front.filter fun other => before (key row) (key other)) = [] :=
    filter_eq_nil_iff.mpr fun other among => by simp [sorted.asymmetric _ _ (earlier other among row mem_cons_self)]
  have all : (rest.filter fun other => before (key row) (key other)) = rest :=
    filter_eq_self.mpr (pairwise_cons.mp behind).1
  simp [none,all,sorted.irreflexive]

section Windows
variable {β : Type} {f : α → Option β} {window : Nat}

-- What is found up to the first gap: where so many rows in a row give nothing.
def reached (f : α → Option β) (window : Nat) : Nat → List α → List β
  | _,[] => []
  | skipped,row :: rest =>
    if window ≤ skipped then []
    else match f row with
      | some b => b :: reached f window 0 rest
      | none => reached f window (skipped+1) rest

-- Every row that gives something stands fewer than so many rows behind the last one.
def Dense (f : α → Option β) (window : Nat) : Nat → List α → Prop
  | _,[] => True
  | skipped,row :: rest => if (f row).isSome then skipped < window ∧ Dense f window 0 rest else Dense f window (skipped+1) rest

variable {skipped : Nat}

theorem dense_far (far : window ≤ skipped) (rows : List α) : Dense f window skipped rows ↔ rows.filterMap f = [] := by
  induction rows generalizing skipped with
  | nil => simp [Dense]
  | cons row rest ih =>
    cases found : f row with
    | none => simp [Dense,found,ih (Nat.le_succ_of_le far)]
    | some b => simp [Dense,found,Nat.not_lt.mpr far]

theorem reached_dense (skipped : Nat) (rows : List α) : reached f window skipped rows = rows.filterMap f ↔ Dense f window skipped rows := by
  induction rows generalizing skipped with
  | nil => simp [reached,Dense]
  | cons row rest ih =>
    by_cases far : window ≤ skipped
    · rw [dense_far far,reached,if_pos far]
      exact eq_comm
    · cases found : f row with
      | none => simp [reached,Dense,far,found,ih]
      | some b => simp [reached,Dense,far,found,ih,Nat.lt_of_not_le far]

theorem dense_short (short : skipped + rows.length ≤ window) : Dense f window skipped rows := by
  induction rows generalizing skipped with
  | nil => trivial
  | cons row rest ih =>
    rw [length_cons] at short
    unfold Dense
    split
    · exact ⟨by omega,ih (by omega)⟩
    · exact ih (by omega)

theorem dense_gap (far : window ≤ skipped + gap.length)
    (none : ∀ other ∈ gap,f other = none) (found : (f row).isSome = true) : ¬Dense f window skipped (gap ++ row :: rest) := by
  induction gap generalizing skipped with
  | nil => simp [Dense,found,Nat.not_lt.mpr (show window ≤ skipped from far)]
  | cons other gap ih =>
    rw [length_cons] at far
    simpa [Dense,none other mem_cons_self] using ih (by omega) fun later among => none later (.tail _ among)

theorem reached_front (near : skipped + front.length < window)
    (found : f row = some b) : reached f window skipped (front ++ row :: rest) = front.filterMap f ++ b :: reached f window 0 rest := by
  induction front generalizing skipped with
  | nil => simp [reached,found,Nat.not_le.mpr (show skipped < window from near)]
  | cons other front ih =>
    rw [length_cons] at near
    rw [cons_append,reached,if_neg (by omega)]
    cases given : f other with
    | none => simp [given,ih (show skipped + 1 + front.length < window by omega)]
    | some c => simp [given,ih (show 0 + front.length < window by omega)]

theorem reached_none (none : (rows.take (window-skipped)).filterMap f = []) : reached f window skipped rows = [] := by
  induction rows generalizing skipped with
  | nil => rfl
  | cons row rest ih =>
    unfold reached
    split
    · rfl
    · rename_i near
      rw [show window-skipped = window-(skipped+1)+1 by omega,take_succ_cons] at none
      cases found : f row with
      | none => exact ih (by simpa [found] using none)
      | some b => simp [found] at none

end Windows

end Pages
