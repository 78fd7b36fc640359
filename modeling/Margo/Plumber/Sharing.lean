import Margo.Plumber.Resolution

/-!
# Sharing the cards of a node

The processes of a node resolve one address with the policy "roundrobin". Those of one bucket
go around its cards, whatever the processes of the other buckets do in between, and whatever
fails: who draws no card leaves the token files as they are.

## Implementation notes

The token files are all that the processes share, and each resolution uses at most one of them,
once and under its lock. The resolutions are therefore one list.
-/

namespace Margo.Plumber

open Lib Lib.Ledger Bytes Int32
open Hg (CStr)

variable {t : Topology} {p : Process} {r : Replies} {inAddress bucketPolicy nicPolicy : String}
  {n : Int} {interfaces : List Interface} {buckets : List Bucket} {files files' : Files}
  {w w' base : Ledger Object} {out : Resolution}

/-! ## One resolution -/

/-- The index of the card drawn last from a bucket. -/
def lastIndex (files : Files) (i : Nat) : Int := readIndex ((files i).getD [])

/-- The address, if a card was drawn. -/
def withCard (inAddress : String) (out : Resolution) : Option String :=
  (out.outAddress.map CStr.text).filter fun text => text != canonicalizeAddrString inAddress

theorem selectNicRoundrobin_none {o : FileReplies} {m : Int} {file : Option (List Byte)}
    (h : (selectNicRoundrobin o m file).2 = none) :
    (selectNicRoundrobin o m file).1.getD [] = file.getD [] := by
  rw [selectNicRoundrobin] at h ⊢
  split
  · rfl
  · split
    · rfl
    · dsimp only
      split
      · rfl
      · split
        · rfl
        · next hm hopened hpread hpwrite =>
            rw [if_neg hm, if_neg hopened] at h
            dsimp only at h
            rw [if_neg hpread, if_neg hpwrite] at h
            cases h

theorem selectNicRoundrobin_some {o : FileReplies} {m k : Int} {file : Option (List Byte)}
    (h : (selectNicRoundrobin o m file).2 = some k) :
    k = nextIndex m (readIndex (file.getD [])) ∧
      (selectNicRoundrobin o m file).1 = some (writeIndex k (file.getD [])) := by
  rw [selectNicRoundrobin] at h ⊢
  split at h
  · cases h
  · next hm =>
      rw [if_neg hm]
      split at h
      · cases h
      · next hopened =>
          rw [if_neg hopened]
          dsimp only at h ⊢
          split at h
          · cases h
          · next hpread =>
              rw [if_neg hpread]
              split at h
              · cases h
              · next hpwrite =>
                  rw [if_neg hpwrite]
                  obtain rfl := Option.some.inj h
                  exact ⟨rfl, rfl⟩

theorem lastIndex_update_of_ne {i j : Nat} (hij : j ≠ i) (file : Option (List Byte)) :
    lastIndex (Function.update files i file) j = lastIndex files j := by
  rw [lastIndex, Function.update_of_ne hij, lastIndex]

theorem lastIndex_update_self (i : Nat) (file : Option (List Byte)) :
    lastIndex (Function.update files i file) i = readIndex (file.getD []) := by
  rw [lastIndex, Function.update_self]

theorem selectIndex_roundrobin (p : Process) (o : FileReplies) (i : Nat) (m : Int)
    (files : Files) :
    selectIndex p o "roundrobin" i m files =
      ((selectNicRoundrobin o m (files i)).2,
        Function.update files i (selectNicRoundrobin o m (files i)).1) := by
  rw [selectIndex, if_pos rfl]

/-- Who draws no card leaves the files as they are. -/
theorem selectIndex_none {o : FileReplies} {i : Nat} {m : Int}
    (h : selectIndex p o "roundrobin" i m files = (none, files')) (j : Nat) :
    lastIndex files' j = lastIndex files j := by
  rw [selectIndex_roundrobin] at h
  obtain ⟨hindex, hfiles⟩ := Prod.mk.inj h
  have hsame := selectNicRoundrobin_none hindex
  rw [← hfiles]
  by_cases hij : j = i
  · subst hij
    rw [lastIndex_update_self, hsame, lastIndex]
  · exact lastIndex_update_of_ne hij _

/-- Who draws a card draws the one after the last. -/
theorem selectIndex_some {o : FileReplies} {i k : Nat} {m : Nat}
    (h : selectIndex p o "roundrobin" i m files = (some (k : Int), files')) (hk : k < m)
    (hm : m < 2 ^ 31) :
    (k : Int) = nextIndex m (lastIndex files i) ∧ lastIndex files' i = k ∧
      ∀ j ≠ i, lastIndex files' j = lastIndex files j := by
  rw [selectIndex_roundrobin] at h
  obtain ⟨hindex, hfiles⟩ := Prod.mk.inj h
  obtain ⟨hnext, hfile⟩ := selectNicRoundrobin_some hindex
  rw [← hfiles]
  refine ⟨hnext, ?_, fun j hij => lastIndex_update_of_ne hij _⟩
  rw [lastIndex_update_self, hfile, Option.getD_some]
  exact readIndex_writeIndex (by omega) (by omega) _

/-- What a card is known by. -/
def Interface.card (cur : Interface) : String × Option PciAttr := (cur.name, cur.pci)

theorem cards_congr {listed : List Interface}
    (h : listed.map Interface.card = interfaces.map Interface.card) (i : Int) :
    cards t bucketPolicy n listed i = cards t bucketPolicy n interfaces i := by
  have hcards : ∀ l : List Interface, cards t bucketPolicy n l i =
      ((l.map Interface.card).filter fun c =>
        (c.2.bind t.pcidev).bind (bucketIndex bucketPolicy n) == some i).map Prod.fst := by
    intro l
    rw [List.filter_map, List.map_map]
    rfl
  rw [hcards, h, hcards]

theorem selectNic_none {o : FileReplies}
    (h : selectNic p o bucketPolicy "roundrobin" n buckets files = some (none, files')) (j : Nat) :
    lastIndex files' j = lastIndex files j := by
  rw [selectNic] at h
  split at h
  · cases h
  · rw [(Prod.mk.inj (Option.some.inj h)).2]
  · split at h
    · cases h
    · split at h
      · rw [(Prod.mk.inj (Option.some.inj h)).2]
      · split at h
        · next files₁ hindex =>
            rw [← (Prod.mk.inj (Option.some.inj h)).2]
            exact selectIndex_none hindex j
        · split at h
          · cases h
          · obtain ⟨nic, -, heq⟩ := Option.map_eq_some_iff.mp h
            cases (Prod.mk.inj heq).1

/-- What one resolution does to the indices in the files. -/
inductive Steps (t : Topology) (p : Process) (inAddress bucketPolicy : String) (n : Int)
    (interfaces : List Interface) (files : Files) (out : Resolution) : Prop
  | kept (hcard : withCard inAddress out = none)
      (hsame : ∀ j, lastIndex out.files j = lastIndex files j)
  | drew (i k : Nat) (name : String)
      (hbucket : selectBucket p bucketPolicy n = some (some (i : Int)))
      (hname : (cards t bucketPolicy n interfaces i)[k]? = some name)
      (hcard : withCard inAddress out = some (canonicalizeAddrString inAddress ++ name))
      (hnext : (k : Int) = nextIndex (cards t bucketPolicy n interfaces i).length
        (lastIndex files i))
      (hlast : (cards t bucketPolicy n interfaces i).length = 1 ∨ lastIndex out.files i = k)
      (hsame : ∀ j ≠ i, lastIndex out.files j = lastIndex files j)

theorem nextIndex_one (i : Int) : nextIndex 1 i = 0 := Int.tmod_one _

theorem length_cards_le (t : Topology) (bucketPolicy : String) (n : Int)
    (interfaces : List Interface) (i : Int) :
    (cards t bucketPolicy n interfaces i).length ≤ interfaces.length := by
  rw [cards, List.length_map]
  exact List.length_filter_le _ _

/-- The processes see the same cards. -/
def Known (interfaces : List Interface) (r : Replies) : Prop :=
  ∀ listed ∈ r.getinfo, listed.map Interface.card = interfaces.map Interface.card

theorem name_ne_empty (hnames : ∀ cur ∈ interfaces, cur.name ≠ "") {i : Int} {k : Nat}
    {name : String} (hname : (cards t bucketPolicy n interfaces i)[k]? = some name) :
    name ≠ "" := by
  obtain ⟨cur, hcur, rfl⟩ := List.mem_map.mp (List.mem_of_getElem? hname)
  exact hnames cur (List.mem_of_mem_filter hcur)

theorem withCard_append {name : String} (hname : name ≠ "") {a : Nat} :
    withCard inAddress ⟨0, some ⟨a, canonicalizeAddrString inAddress ++ name⟩, files', w'⟩ =
      some (canonicalizeAddrString inAddress ++ name) := by
  apply Option.filter_eq_some_iff.mpr
  refine ⟨rfl, bne_iff_ne.mpr fun heq => hname ?_⟩
  apply String.toList_inj.mp
  have happend := congrArg String.toList heq
  rw [String.toList_append] at happend
  exact List.append_right_eq_self.mp happend

theorem steps (hcount : numBuckets t bucketPolicy = some n) (hknown : Known interfaces r)
    (hnames : ∀ cur ∈ interfaces, cur.name ≠ "") (hlt : interfaces.length < 2 ^ 31)
    (hmalloc : r.malloc = true)
    (h : resolveNic t p r inAddress bucketPolicy "roundrobin" files w = some out) :
    Steps t p inAddress bucketPolicy n interfaces files out := by
  have hplain : ∀ {a : Nat} {files' : Files} {w' : Ledger Object},
      withCard inAddress ⟨0, some ⟨a, canonicalizeAddrString inAddress⟩, files', w'⟩ = none := by
    intro a files' w'
    rw [withCard, Option.map_some]
    exact Option.filter_eq_none_iff.mpr (by simp)
  cases ends h with
  | unallocated _ => exact .kept rfl fun _ => rfl
  | passed _ => exact .kept hplain fun _ => rfl
  | undivided _ _ => exact .kept hplain fun _ => rfl
  | unselected _ _ hreason =>
      apply Steps.kept hplain
      rcases hreason with ⟨-, rfl⟩ | hselect
      · exact fun _ => rfl
      · exact selectNic_none hselect
  | unwritten _ _ _ hnone => cases hmalloc.symm.trans hnone
  | resolved hasks hsetup hall hselect =>
      obtain ⟨-, listed, m, i, k, hinfo, hm, -, -, hbucket, hname, hdrawn⟩ :=
        draws hasks hsetup hall hselect
      obtain rfl : n = m := Option.some.inj (hcount.symm.trans hm)
      rw [cards_congr (hknown listed hinfo)] at hname hdrawn
      obtain ⟨hk, -⟩ := List.getElem?_eq_some_iff.mp hname
      have hne := name_ne_empty hnames hname
      rcases hdrawn with ⟨hone, rfl⟩ | ⟨hone, hindex⟩
      · refine .drew i k _ hbucket hname (withCard_append hne) ?_ (.inl hone) fun _ _ => rfl
        rw [hone, Nat.cast_one, nextIndex_one]
        omega
      · obtain ⟨hnext, hlast, hsame⟩ := selectIndex_some hindex hk
          (Nat.lt_of_le_of_lt (length_cards_le _ _ _ _ _) hlt)
        exact .drew i k _ hbucket hname (withCard_append hne) hnext (.inr hlast) hsame

/-! ## Drawing a card -/

/-- Nothing fails for a process. -/
structure Answered (t : Topology) (p : Process) (r : Replies) (bucketPolicy : String) (n : Int) :
    Prop where
  canonicalize : r.canonicalize = true
  calloc : r.calloc = true
  malloc : r.malloc = true
  file : r.file = .succeed
  listed : ∃ listed, r.getinfo = some listed ∧
    ∀ cur ∈ pciCards listed, Ready t bucketPolicy n cur
  bucket : ∃ i : Nat, (i : Int) < n ∧ selectBucket p bucketPolicy n = some (some (i : Int))

theorem selectNic_ne_none {i : Nat} {b : Bucket}
    (hbucket : selectBucket p bucketPolicy n = some (some (i : Int)))
    (hb : buckets[i]? = some b) (hne : b.nics ≠ []) :
    selectNic p .succeed bucketPolicy "roundrobin" n buckets files ≠ some (none, files') := by
  have hlength : 0 < b.nics.length := List.length_pos_of_ne_nil hne
  have hindex : selectIndex p .succeed "roundrobin" i b.nics.length files =
      (some (nextIndex b.nics.length (lastIndex files i)),
        Function.update files i (some
          (writeIndex (nextIndex b.nics.length (lastIndex files i)) ((files i).getD [])))) := by
    rw [selectIndex_roundrobin, selectNicRoundrobin_eq (by omega), lastIndex]
  intro h
  rw [selectNic, hbucket] at h
  dsimp only at h
  rw [Int.toNat_natCast, hb] at h
  dsimp only at h
  split at h
  · rw [List.getElem?_eq_getElem hlength] at h
    cases h
  · rw [hindex] at h
    dsimp only at h
    split at h
    · cases h
    · obtain ⟨nic, -, heq⟩ := Option.map_eq_some_iff.mp h
      cases (Prod.mk.inj heq).1

theorem buckets_full {m : Int} {listed : List Interface}
    (hcount : numBuckets t bucketPolicy = some n)
    (hlisted : listed.map Interface.card = interfaces.map Interface.card)
    (hcards : ∀ j : Nat, (j : Int) < n → cards t bucketPolicy n interfaces j ≠ [])
    (hdivides : Divides t bucketPolicy listed m buckets) : ∀ b ∈ buckets, b.nics ≠ [] := by
  obtain rfl : n = m := Option.some.inj (hcount.symm.trans hdivides.count)
  intro b hb hnil
  obtain ⟨j, hj, rfl⟩ := List.getElem_of_mem hb
  have hnames := hdivides.bucket j _ (List.getElem?_eq_getElem hj)
  rw [cards_congr hlisted, Bucket.names, hnil] at hnames
  exact hcards j (hdivides.length ▸ Int.ofNat_lt.mpr hj) hnames.symm

/-- On a node where every bucket has a card, a process for which nothing fails draws one. -/
theorem isSome_withCard (hcount : numBuckets t bucketPolicy = some n)
    (hknown : Known interfaces r) (hnames : ∀ cur ∈ interfaces, cur.name ≠ "")
    (hcards : ∀ j : Nat, (j : Int) < n → cards t bucketPolicy n interfaces j ≠ [])
    (hasks : Asks inAddress bucketPolicy "roundrobin") (hanswered : Answered t p r bucketPolicy n)
    (h : resolveNic t p r inAddress bucketPolicy "roundrobin" files w = some out) :
    (withCard inAddress out).isSome := by
  obtain ⟨listed, hinfo, hready⟩ := hanswered.listed
  obtain ⟨i, hi, hbucket⟩ := hanswered.bucket
  obtain ⟨address, buckets₁, w₁, hok⟩ := setupBuckets_ready (opened w) hcount (by omega)
    hanswered.calloc hinfo hready
  cases ends h with
  | unallocated hnone => cases hanswered.canonicalize.symm.trans hnone
  | passed hnot => exact absurd hasks hnot
  | undivided _ hsetup => cases hok.symm.trans hsetup
  | @unselected m _ buckets _ _ _ hsetup hreason =>
      obtain ⟨listed, hinfo, hdivides⟩ := setupBuckets_divides hsetup
      have hfull := buckets_full hcount (hknown listed hinfo) hcards hdivides
      obtain rfl : n = m := Option.some.inj (hcount.symm.trans hdivides.count)
      rcases hreason with ⟨⟨b, hb, hnil⟩, -⟩ | hselect
      · exact absurd hnil (hfull b hb)
      · have hlt : i < buckets.length := Int.ofNat_lt.mp (hdivides.length.symm ▸ hi)
        rw [hanswered.file] at hselect
        exact absurd hselect (selectNic_ne_none hbucket (List.getElem?_eq_getElem hlt)
          (hfull _ (List.getElem_mem hlt)))
  | unwritten _ _ _ hnone => cases hanswered.malloc.symm.trans hnone
  | resolved hasks hsetup hall hselect =>
      obtain ⟨-, listed, m, i, k, hinfo, hm, -, -, hbucket, hname, hdrawn⟩ :=
        draws hasks hsetup hall hselect
      rw [cards_congr (hknown listed hinfo)] at hname
      rw [withCard_append (name_ne_empty hnames hname)]
      rfl

/-! ## All processes -/

/-- A process that resolves the address, and what it is answered. -/
structure Call where
  process : Process
  replies : Replies

/-- The resolutions of the processes, each in its own memory, if none of them crashes. -/
def resolveAll (t : Topology) (inAddress bucketPolicy nicPolicy : String) :
    List Call → Files → Option (List (Call × Resolution))
  | [], _ => some []
  | c :: rest, files =>
      (resolveNic t c.process c.replies inAddress bucketPolicy nicPolicy files ⟨0, [], []⟩).bind
        fun out => (resolveAll t inAddress bucketPolicy nicPolicy rest out.files).map
          fun outs => (c, out) :: outs

/-- The addresses with a card that the processes of a bucket got. -/
def addresses (inAddress bucketPolicy : String) (n : Int) (i : Nat)
    (outs : List (Call × Resolution)) : List String :=
  outs.filterMap fun o =>
    if selectBucket o.1.process bucketPolicy n = some (some (i : Int)) then
      withCard inAddress o.2
    else none

theorem addresses_cons_of_none {i : Nat} {o : Call × Resolution}
    {outs : List (Call × Resolution)}
    (h : (if selectBucket o.1.process bucketPolicy n = some (some (i : Int)) then
      withCard inAddress o.2 else none) = none) :
    addresses inAddress bucketPolicy n i (o :: outs) =
      addresses inAddress bucketPolicy n i outs :=
  List.filterMap_cons_none h

theorem addresses_cons_of_some {i : Nat} {o : Call × Resolution}
    {outs : List (Call × Resolution)} {address : String}
    (h : (if selectBucket o.1.process bucketPolicy n = some (some (i : Int)) then
      withCard inAddress o.2 else none) = some address) :
    addresses inAddress bucketPolicy n i (o :: outs) =
      address :: addresses inAddress bucketPolicy n i outs :=
  List.filterMap_cons_some h

/-- The address names the card with this index. -/
def Names (canon : String) (names : List String) (k : Int) (address : String) : Prop :=
  ∃ name, names[k.toNat]? = some name ∧ address = canon ++ name

theorem follow_replicate_one (m : Nat) (i j : Int) :
    follow i (List.replicate m 1) = follow j (List.replicate m 1) := by
  cases m with
  | zero => rfl
  | succ m => rw [List.replicate_succ, follow, follow, nextIndex_one, nextIndex_one]

/-- In each bucket the cards are drawn that follow the one in its file. -/
theorem drawn_follow {calls : List Call} {outs : List (Call × Resolution)}
    (hcount : numBuckets t bucketPolicy = some n)
    (hknown : ∀ c ∈ calls, Known interfaces c.replies)
    (hnames : ∀ cur ∈ interfaces, cur.name ≠ "") (hlt : interfaces.length < 2 ^ 31)
    (hmalloc : ∀ c ∈ calls, c.replies.malloc = true)
    (hrun : resolveAll t inAddress bucketPolicy "roundrobin" calls files = some outs) (i : Nat) :
    ∃ selected : List Int,
      List.Forall₂
        (Names (canonicalizeAddrString inAddress) (cards t bucketPolicy n interfaces i))
        selected (addresses inAddress bucketPolicy n i outs) ∧
      selected = follow (lastIndex files i)
        (List.replicate selected.length ((cards t bucketPolicy n interfaces i).length : Int)) ∧
      ∀ k ∈ selected, 0 ≤ k ∧ k < (cards t bucketPolicy n interfaces i).length := by
  induction calls generalizing files outs with
  | nil =>
      obtain rfl := Option.some.inj hrun
      exact ⟨[], .nil, rfl, fun k hk => absurd hk List.not_mem_nil⟩
  | cons c rest ih =>
      rw [resolveAll] at hrun
      obtain ⟨out, hout, hrest⟩ := Option.bind_eq_some_iff.mp hrun
      obtain ⟨outs₁, houts, rfl⟩ := Option.map_eq_some_iff.mp hrest
      obtain ⟨selected, hall, hfollow, hrange⟩ :=
        ih (fun c hc => hknown c (List.mem_cons_of_mem _ hc))
          (fun c hc => hmalloc c (List.mem_cons_of_mem _ hc)) houts
      have hstep := steps hcount (hknown c List.mem_cons_self) hnames hlt
        (hmalloc c List.mem_cons_self) hout
      cases hstep with
      | kept hcard hsame =>
          refine ⟨selected, ?_, hsame i ▸ hfollow, hrange⟩
          rw [addresses_cons_of_none (by rw [hcard, ite_self])]
          exact hall
      | drew j k name hbucket hname hcard hnext hlast hsame =>
          by_cases hij : j = i
          · subst hij
            obtain ⟨hk, -⟩ := List.getElem?_eq_some_iff.mp hname
            refine ⟨(k : Int) :: selected, ?_, ?_, ?_⟩
            · rw [addresses_cons_of_some (by rw [if_pos hbucket, hcard])]
              exact .cons ⟨name, hname, rfl⟩ hall
            · rw [List.length_cons, List.replicate_succ, follow, ← hnext]
              apply congrArg (List.cons (k : Int))
              rcases hlast with hone | hlast
              · rw [hone, Nat.cast_one] at hfollow ⊢
                rw [follow_replicate_one _ _ (lastIndex out.files j)]
                exact hfollow
              · rw [← hlast]
                exact hfollow
            · intro l hl
              rcases List.mem_cons.mp hl with rfl | hl
              · exact ⟨Int.natCast_nonneg k, Int.ofNat_lt.mpr hk⟩
              · exact hrange l hl
          · have hother : selectBucket c.process bucketPolicy n ≠ some (some (i : Int)) := by
              rw [hbucket]
              intro heq
              exact hij (Int.ofNat_inj.mp (Option.some.inj (Option.some.inj heq)))
            refine ⟨selected, ?_, hsame i (Ne.symm hij) ▸ hfollow, hrange⟩
            rw [addresses_cons_of_none (if_neg hother)]
            exact hall

theorem forall₂_replicate {m : Int} {selected : List Int}
    (h : ∀ k ∈ selected, 0 ≤ k ∧ k < m) :
    List.Forall₂ (fun n j => 0 ≤ j ∧ j < n) (List.replicate selected.length m) selected := by
  induction selected with
  | nil => exact .nil
  | cons k rest ih =>
      exact .cons (h k List.mem_cons_self) (ih fun k hk => h k (List.mem_cons_of_mem _ hk))

theorem isSome_of_answered {calls : List Call} {outs : List (Call × Resolution)}
    (hcount : numBuckets t bucketPolicy = some n)
    (hknown : ∀ c ∈ calls, Known interfaces c.replies)
    (hnames : ∀ cur ∈ interfaces, cur.name ≠ "")
    (hcards : ∀ j : Nat, (j : Int) < n → cards t bucketPolicy n interfaces j ≠ [])
    (hasks : Asks inAddress bucketPolicy "roundrobin")
    (hrun : resolveAll t inAddress bucketPolicy "roundrobin" calls files = some outs) :
    ∀ o ∈ outs, Answered t o.1.process o.1.replies bucketPolicy n →
      (withCard inAddress o.2).isSome := by
  induction calls generalizing files outs with
  | nil =>
      obtain rfl := Option.some.inj hrun
      exact fun o ho => absurd ho List.not_mem_nil
  | cons c rest ih =>
      rw [resolveAll] at hrun
      obtain ⟨out, hout, hrest⟩ := Option.bind_eq_some_iff.mp hrun
      obtain ⟨outs₁, houts, rfl⟩ := Option.map_eq_some_iff.mp hrest
      intro o ho hanswered
      rcases List.mem_cons.mp ho with rfl | ho
      · exact isSome_withCard hcount (hknown c List.mem_cons_self) hnames hcards hasks hanswered
          hout
      · exact ih (fun c hc => hknown c (List.mem_cons_of_mem _ hc)) houts o ho hanswered

/-- In every run of processes that does not crash, those of each bucket go around the cards of
this bucket; and if every bucket has a card, each process for which nothing fails draws one. -/
theorem processes_go_around {calls : List Call} {outs : List (Call × Resolution)}
    (hcount : numBuckets t bucketPolicy = some n)
    (hknown : ∀ c ∈ calls, Known interfaces c.replies)
    (hnames : ∀ cur ∈ interfaces, cur.name ≠ "") (hlt : interfaces.length < 2 ^ 31)
    (hmalloc : ∀ c ∈ calls, c.replies.malloc = true)
    (hrun : resolveAll t inAddress bucketPolicy "roundrobin" calls files = some outs) :
    (∀ i : Nat, ∃ selected : List Int,
      List.Forall₂
        (Names (canonicalizeAddrString inAddress) (cards t bucketPolicy n interfaces i))
        selected (addresses inAddress bucketPolicy n i outs) ∧
      GoesAround
        (List.replicate selected.length ((cards t bucketPolicy n interfaces i).length : Int))
        selected) ∧
    (Asks inAddress bucketPolicy "roundrobin" →
      (∀ j : Nat, (j : Int) < n → cards t bucketPolicy n interfaces j ≠ []) →
      ∀ o ∈ outs, Answered t o.1.process o.1.replies bucketPolicy n →
        (withCard inAddress o.2).isSome) := by
  refine ⟨fun i => ?_, fun hasks hcards =>
    isSome_of_answered hcount hknown hnames hcards hasks hrun⟩
  obtain ⟨selected, hall, hfollow, hrange⟩ :=
    drawn_follow hcount hknown hnames hlt hmalloc hrun i
  refine ⟨selected, hall, ?_⟩
  have hle := length_cards_le t bucketPolicy n interfaces i
  have hcounts : Counts
      (List.replicate selected.length ((cards t bucketPolicy n interfaces i).length : Int)) := by
    intro m hm
    obtain ⟨hne, rfl⟩ := List.mem_replicate.mp hm
    obtain ⟨k, hk⟩ := List.exists_mem_of_length_pos (Nat.pos_of_ne_zero hne)
    obtain ⟨hlower, hupper⟩ := hrange k hk
    omega
  have haround := goesAround_follow hcounts (i := lastIndex files i)
    (by rw [← hfollow]; exact forall₂_replicate hrange)
  rwa [← hfollow] at haround

/-- Two processes of the first NUMA node share its cards, with one of the second in between. -/
theorem processes_go_around_three : ∃ outs,
    resolveAll twoNodes "cxi" "numa" "roundrobin"
        [⟨onNode 0, allAnswered⟩, ⟨onNode 1, allAnswered⟩, ⟨onNode 0, allAnswered⟩]
        (fun _ => none) = some outs ∧
      addresses "cxi" "numa" 2 0 outs = ["cxi://cxi0", "cxi://cxi1"] ∧
      ∃ selected, selected.length = 2 ∧ GoesAround [2, 2] selected := by
  have hsome : (resolveAll twoNodes "cxi" "numa" "roundrobin"
      [⟨onNode 0, allAnswered⟩, ⟨onNode 1, allAnswered⟩, ⟨onNode 0, allAnswered⟩]
      (fun _ => none)).isSome := rfl
  obtain ⟨outs, houts⟩ := Option.isSome_iff_exists.mp hsome
  have haddresses : (resolveAll twoNodes "cxi" "numa" "roundrobin"
      [⟨onNode 0, allAnswered⟩, ⟨onNode 1, allAnswered⟩, ⟨onNode 0, allAnswered⟩]
      (fun _ => none)).map (addresses "cxi" "numa" 2 0) = some ["cxi://cxi0", "cxi://cxi1"] := rfl
  rw [houts, Option.map_some] at haddresses
  have hreplies : ∀ c ∈ ([⟨onNode 0, allAnswered⟩, ⟨onNode 1, allAnswered⟩,
      ⟨onNode 0, allAnswered⟩] : List Call), c.replies = allAnswered := by
    intro c hc
    simp only [List.mem_cons, List.not_mem_nil, or_false] at hc
    rcases hc with rfl | rfl | rfl <;> rfl
  have hknown : ∀ c ∈ ([⟨onNode 0, allAnswered⟩, ⟨onNode 1, allAnswered⟩,
      ⟨onNode 0, allAnswered⟩] : List Call), Known threeCards c.replies := by
    intro c hc listed hlisted
    rw [hreplies c hc] at hlisted
    rw [← Option.some.inj hlisted]
  have hcount : numBuckets twoNodes "numa" = some 2 := rfl
  obtain ⟨selected, hall, haround⟩ := (processes_go_around hcount hknown (by decide) (by decide)
    (fun c hc => by rw [hreplies c hc]; rfl) houts).1 0
  have hlength := hall.length_eq
  rw [Option.some.inj haddresses] at hlength
  rw [hlength] at haround
  exact ⟨outs, houts, Option.some.inj haddresses, selected, hlength, haround⟩

end Margo.Plumber
