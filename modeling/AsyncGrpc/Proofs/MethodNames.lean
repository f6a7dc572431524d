import AsyncGrpc.Builder
import AsyncGrpc.Proofs.Startup

/-!
# Method names

`ParseMethodFullName` accepts the documented names `/<service>/<method>` and returns their two
parts. It also accepts a documented name that goes on with a third slash, and drops the rest,
so that two names can claim one entry of `rpc_handlers_`. Handlers whose names are documented
keep their own entries.
-/

namespace AsyncGrpc.Proofs

open Std Server Server.Builder

/-- The form `/<service>/<method>` of a name, with the service and the method it names. -/
structure Documented (name : String) (key : String × String) : Prop where
  spelled : name = "/" ++ key.1 ++ "/" ++ key.2
  service_ne : key.1 ≠ ""
  method_ne : key.2 ≠ ""
  service_slash : '/' ∉ key.1.toList
  method_slash : '/' ∉ key.2.toList

/-- The name is a documented one that goes on with a third slash. -/
def GoesOn (name : String) : Prop :=
  ∃ first key rest, Documented first key ∧ name = first ++ "/" ++ rest

/-! ## Reading a line -/

/-- The text ends, or its next character is the delimiter. -/
def AtDelim (c : Char) (tail : List Char) : Prop :=
  tail = [] ∨ ∃ rest, tail = c :: rest

lemma line_split {w tail : List Char} {c : Char} (hw : c ∉ w) (ht : AtDelim c tail) :
    (w ++ tail).takeWhile (· != c) = w ∧ (w ++ tail).dropWhile (· != c) = tail := by
  have hpos : ∀ a ∈ w, (a != c) = true := fun a ha => bne_iff_ne.mpr (fun e => hw (e ▸ ha))
  rw [List.takeWhile_append_of_pos hpos, List.dropWhile_append_of_pos hpos]
  obtain rfl | ⟨rest, rfl⟩ := ht <;> simp

lemma getline_last {w : List Char} {c : Char} (hw : c ∉ w) (str : String) :
    StringStream.getline ⟨w, true⟩ str c = (String.ofList w, ⟨[], false⟩) := by
  obtain ⟨htake, hdrop⟩ := line_split hw (.inl rfl)
  rw [List.append_nil] at htake hdrop
  simp [StringStream.getline, htake, hdrop]

lemma getline_delim {w : List Char} {c : Char} (hw : c ∉ w) (rest : List Char) (str : String) :
    StringStream.getline ⟨w ++ c :: rest, true⟩ str c = (String.ofList w, ⟨rest, true⟩) := by
  obtain ⟨htake, hdrop⟩ := line_split hw (.inr ⟨rest, rfl⟩)
  simp [StringStream.getline, htake, hdrop]

lemma getline_not_good (l : List Char) (str : String) (c : Char) :
    StringStream.getline ⟨l, false⟩ str c = (str, ⟨l, false⟩) := by
  simp [StringStream.getline]

/-- Text without the delimiter, or up to its first one. -/
lemma line_cases (c : Char) (l : List Char) :
    c ∉ l ∨ ∃ w rest, c ∉ w ∧ l = w ++ c :: rest := by
  by_cases h : c ∈ l
  · obtain ⟨w, rest, rfl, hw⟩ := List.eq_append_cons_of_mem h
    exact .inr ⟨w, rest, hw, rfl⟩
  · exact .inl h

/-! ## The parser -/

lemma parse_one_part {name : String} {w : List Char} (hw : '/' ∉ w)
    (hn : name.toList = '/' :: w) : parseMethodFullName name = .error (.check "") := by
  simp [parseMethodFullName, hn, getline_last hw, getline_not_good]

lemma parse_two_parts {name : String} {w m tail : List Char} (hw : '/' ∉ w) (hm : '/' ∉ m)
    (ht : AtDelim '/' tail) (hn : name.toList = '/' :: (w ++ '/' :: (m ++ tail))) :
    parseMethodFullName name =
      if String.ofList w ≠ "" ∧ String.ofList m ≠ "" then .ok (String.ofList w, String.ofList m)
      else .error (.check "") := by
  have hline : (StringStream.getline ⟨m ++ tail, true⟩ "" '/').1 = String.ofList m := by
    obtain rfl | ⟨rest, rfl⟩ := ht
    · rw [List.append_nil, getline_last hm]
    · rw [getline_delim hm]
  simp only [parseMethodFullName, hn, getline_delim hw, hline, ne_eq, not_true_eq_false,
    if_false]

lemma toList_spelled (service method : String) :
    ("/" ++ service ++ "/" ++ method).toList =
      '/' :: (service.toList ++ '/' :: method.toList) := by
  simp

lemma eq_ofList_toList {s : String} {l : List Char} (h : s.toList = l) : s = String.ofList l := by
  rw [← h, String.ofList_toList]

/-- What an accepted name looks like: its two parts, and text that is dropped. -/
lemma parse_ok_iff {name : String} {key : String × String} :
    parseMethodFullName name = .ok key ↔
      ∃ first tail, Documented first key ∧ AtDelim '/' tail ∧
        name = first ++ String.ofList tail := by
  constructor
  · intro h
    match hn : name.toList with
    | [] => simp [parseMethodFullName, hn] at h
    | c :: l =>
      by_cases hc : c = '/'
      · subst hc
        obtain hl | ⟨w, l', hw, rfl⟩ := line_cases '/' l
        · rw [parse_one_part hl hn] at h
          cases h
        · obtain ⟨m, tail, hm, ht, rfl⟩ : ∃ m tail, '/' ∉ m ∧ AtDelim '/' tail ∧ l' = m ++ tail := by
            obtain hl' | ⟨m, rest, hm, rfl⟩ := line_cases '/' l'
            · exact ⟨l', [], hl', .inl rfl, (List.append_nil l').symm⟩
            · exact ⟨m, '/' :: rest, hm, .inr ⟨rest, rfl⟩, rfl⟩
          rw [parse_two_parts hw hm ht hn] at h
          split at h
          · rename_i hne
            obtain rfl := Except.ok.inj h
            refine ⟨_, tail, ⟨rfl, hne.1, hne.2, ?_, ?_⟩, ht, ?_⟩
            · rwa [String.toList_ofList]
            · rwa [String.toList_ofList]
            · rw [eq_ofList_toList hn]
              apply String.toList_inj.mp
              simp
          · cases h
      · simp [parseMethodFullName, hn, hc] at h
  · rintro ⟨first, tail, hd, ht, rfl⟩
    have hn : (first ++ String.ofList tail).toList =
        '/' :: (key.1.toList ++ '/' :: (key.2.toList ++ tail)) := by
      simp [hd.spelled]
    rw [parse_two_parts hd.service_slash hd.method_slash ht hn]
    simp [String.ofList_toList, hd.service_ne, hd.method_ne]

lemma Documented.parse {name : String} {key : String × String} (h : Documented name key) :
    parseMethodFullName name = .ok key :=
  parse_ok_iff.mpr ⟨name, [], h, .inl rfl, by simp⟩

/-- A documented name has two slashes. -/
lemma Documented.count_slash {name : String} {key : String × String} (h : Documented name key) :
    name.toList.count '/' = 2 := by
  rw [h.spelled, toList_spelled, List.count_cons_self, List.count_append, List.count_cons_self,
    List.count_eq_zero.mpr h.service_slash, List.count_eq_zero.mpr h.method_slash]

lemma GoesOn.not_documented {name : String} (h : GoesOn name) (key : String × String) :
    ¬ Documented name key := by
  obtain ⟨first, key', rest, hd, rfl⟩ := h
  intro hd'
  have hcount := hd'.count_slash
  have hslash : "/".toList = ['/'] := rfl
  rw [String.toList_append, String.toList_append, List.count_append, List.count_append,
    hd.count_slash, hslash, List.count_cons_self] at hcount
  omega

lemma parse_ok_cases {name : String} {key : String × String}
    (h : parseMethodFullName name = .ok key) : Documented name key ∨ GoesOn name := by
  obtain ⟨first, tail, hd, ht, rfl⟩ := parse_ok_iff.mp h
  obtain rfl | ⟨rest, rfl⟩ := ht
  · left
    simpa using hd
  · right
    refine ⟨first, key, String.ofList rest, hd, ?_⟩
    apply String.toList_inj.mp
    simp

lemma GoesOn.accepted {name : String} (h : GoesOn name) :
    ∃ key, parseMethodFullName name = .ok key := by
  obtain ⟨first, key, rest, hd, rfl⟩ := h
  refine ⟨key, parse_ok_iff.mpr ⟨first, '/' :: rest.toList, hd, .inr ⟨_, rfl⟩, ?_⟩⟩
  apply String.toList_inj.mp
  simp

/-- The name is accepted if and only if it is documented, and it then spells what is
returned. -/
structure ParsedExactly (name : String) : Prop where
  accepted_iff : (∃ key, parseMethodFullName name = .ok key) ↔ ∃ key, Documented name key
  returned : ∀ key, parseMethodFullName name = .ok key → Documented name key

lemma parsedExactly_iff (name : String) : ParsedExactly name ↔ ¬ GoesOn name := by
  constructor
  · intro h hgo
    obtain ⟨key, hd⟩ := h.accepted_iff.mp hgo.accepted
    exact hgo.not_documented key hd
  · intro h
    have hret : ∀ key, parseMethodFullName name = .ok key → Documented name key :=
      fun key hk => (parse_ok_cases hk).resolve_right h
    exact ⟨⟨fun ⟨key, hk⟩ => ⟨key, hret key hk⟩, fun ⟨key, hd⟩ => ⟨key, hd.parse⟩⟩, hret⟩

/-- Two names with one key: one of them goes on. -/
lemma goesOn_of_same_key {name name' : String} {key : String × String}
    (h : parseMethodFullName name = .ok key) (h' : parseMethodFullName name' = .ok key)
    (hne : name ≠ name') : GoesOn name ∨ GoesOn name' := by
  obtain hd | hgo := parse_ok_cases h
  · obtain hd' | hgo' := parse_ok_cases h'
    · exact absurd (hd.spelled.trans hd'.spelled.symm) hne
    · exact .inr hgo'
  · exact .inl hgo

/-! ## The registered handlers -/

lemma getElem?_emplaced (methods : TreeMap String RpcHandlerInfo) (m k : String)
    (info : RpcHandlerInfo) :
    (methods.insertIfNew m info)[k]? =
      if m = k then methods[k]?.or (some info) else methods[k]? := by
  rw [TreeMap.getElem?_insertIfNew]
  by_cases hk : m = k
  · subst hk
    cases he : methods[m]? <;> simp [TreeMap.mem_iff_isSome_getElem?, he]
  · simp [hk]

lemma handlerInfo_emplace (b : Builder) (key k : String × String) (info : RpcHandlerInfo) :
    (b.emplace key info).handlerInfo k =
      if key = k then (b.handlerInfo k).or (some info) else b.handlerInfo k := by
  obtain ⟨service, method⟩ := key
  obtain ⟨service', method'⟩ := k
  simp only [handlerInfo, emplace, TreeMap.getElem?_alter, Std.LawfulEqCmp.compare_eq_iff_eq,
    Prod.mk.injEq]
  by_cases hs : service = service'
  · subst hs
    cases hm : b.rpcHandlers[service]? <;> simp [getElem?_emplaced]
  · simp [hs]

lemma registerHandlers_accepted {handler : RpcHandlerType} {key : String × String}
    (hp : parseMethodFullName handler.methodName = .ok key) (b : Builder)
    (rest : List RpcHandlerType) :
    registerHandlers b (handler :: rest) = registerHandlers (b.emplace key handler.info) rest := by
  rw [registerHandlers, registerHandler, hp]
  rfl

lemma registerHandlers_cons {b b' : Builder} {handler : RpcHandlerType}
    {rest : List RpcHandlerType} (h : registerHandlers b (handler :: rest) = .ok b') :
    ∃ key, parseMethodFullName handler.methodName = .ok key ∧
      registerHandlers (b.emplace key handler.info) rest = .ok b' := by
  cases hp : parseMethodFullName handler.methodName with
  | error e =>
    rw [registerHandlers, registerHandler, hp] at h
    cases h
  | ok key => exact ⟨key, rfl, (registerHandlers_accepted hp b rest).symm.trans h⟩

/-- The entry of a key after some registrations: the one it had, or that of the first handler
whose name has this key. -/
lemma handlerInfo_registerHandlers {b b' : Builder} {handlers : List RpcHandlerType}
    (h : registerHandlers b handlers = .ok b') (key : String × String) :
    b'.handlerInfo key = (b.handlerInfo key).or
      ((handlers.find? (fun h => decide (parseMethodFullName h.methodName = .ok key))).map
        RpcHandlerType.info) := by
  induction handlers generalizing b with
  | nil =>
    obtain rfl := Except.ok.inj h
    simp
  | cons handler rest ih =>
    obtain ⟨k, hp, hrest⟩ := registerHandlers_cons h
    rw [ih hrest, handlerInfo_emplace, List.find?_cons, hp]
    by_cases hk : k = key
    · subst hk
      cases b.handlerInfo k <;> simp
    · simp [hk]

/-- A registered handler's name was accepted. -/
lemma accepted_of_registerHandlers {b b' : Builder} {handlers : List RpcHandlerType}
    (h : registerHandlers b handlers = .ok b') {handler : RpcHandlerType}
    (hmem : handler ∈ handlers) : ∃ key, parseMethodFullName handler.methodName = .ok key := by
  induction handlers generalizing b with
  | nil => cases hmem
  | cons first rest ih =>
    obtain ⟨key, hp, hrest⟩ := registerHandlers_cons h
    obtain rfl | hmem := List.mem_cons.mp hmem
    · exact ⟨key, hp⟩
    · exact ih hrest hmem

lemma handlerInfo_new (options : Options) (key : String × String) :
    (Builder.new options).handlerInfo key = none := by
  simp [handlerInfo, Builder.new]

/-- Handlers with different names none of which goes on have an entry each. -/
lemma own_entry {options : Options} {b : Builder} {handlers : List RpcHandlerType}
    (h : registerHandlers (.new options) handlers = .ok b)
    (hnames : (handlers.map RpcHandlerType.methodName).Nodup)
    (hgo : ∀ handler ∈ handlers, ¬ GoesOn handler.methodName) {handler : RpcHandlerType}
    (hmem : handler ∈ handlers) :
    ∃ key, Documented handler.methodName key ∧ b.handlerInfo key = some handler.info := by
  obtain ⟨key, hkey⟩ := accepted_of_registerHandlers h hmem
  refine ⟨key, (parse_ok_cases hkey).resolve_right (hgo handler hmem), ?_⟩
  rw [handlerInfo_registerHandlers h, handlerInfo_new, Option.none_or]
  cases hfind : handlers.find? (fun h => decide (parseMethodFullName h.methodName = .ok key)) with
  | none =>
    have := List.find?_eq_none.mp hfind handler hmem
    exact absurd hkey (of_decide_eq_false (Bool.eq_false_iff.mpr this))
  | some first =>
    have hfirst : first ∈ handlers := List.mem_of_find?_eq_some hfind
    have hsame : parseMethodFullName first.methodName = .ok key := by
      simpa using List.find?_some hfind
    have hname : first.methodName = handler.methodName := by
      by_contra hne
      obtain hbad | hbad := goesOn_of_same_key hsame hkey hne
      · exact hgo first hfirst hbad
      · exact hgo handler hmem hbad
    obtain rfl := List.inj_on_of_nodup_map hnames hfirst hmem hname
    rfl

/-- Parsing is exact at the names that do not go on with a third slash, and only there. Two
different names have one key only if one of them goes on; handlers whose names do not go on
keep their own entries. -/
theorem parseMethodFullName_exact_iff (name : String) (options : Options)
    (handlers : List RpcHandlerType) (b : Builder) :
    (ParsedExactly name ↔ ¬ GoesOn name) ∧
    (∀ name' key, parseMethodFullName name = .ok key → parseMethodFullName name' = .ok key →
      name ≠ name' → GoesOn name ∨ GoesOn name') ∧
    (registerHandlers (.new options) handlers = .ok b →
      (handlers.map RpcHandlerType.methodName).Nodup →
      (∀ handler ∈ handlers, ¬ GoesOn handler.methodName) → ∀ handler ∈ handlers,
      ∃ key, Documented handler.methodName key ∧ b.handlerInfo key = some handler.info) := by
  refine ⟨parsedExactly_iff name, ?_, ?_⟩
  · intro name' key h h' hne
    exact goesOn_of_same_key h h' hne
  · intro h hnames hgo handler hmem
    exact own_entry h hnames hgo hmem

/-- The handlers of `/a/b` and `/a/c`. -/
theorem exact_of_two_handlers :
    ∃ b, registerHandlers (.new ⟨1, 1, by decide⟩)
        [⟨"/a/b", .normalRpc, 1⟩, ⟨"/a/c", .serverStreaming, 2⟩] = .ok b ∧
      (∃ key, Documented "/a/b" key ∧ b.handlerInfo key = some ⟨1, .normalRpc, "/a/b"⟩) ∧
      ∃ key, Documented "/a/c" key ∧ b.handlerInfo key = some ⟨2, .serverStreaming, "/a/c"⟩ := by
  have hb : Documented "/a/b" ("a", "b") := by
    refine ⟨rfl, ?_, ?_, ?_, ?_⟩ <;> decide +kernel
  have hc : Documented "/a/c" ("a", "c") := by
    refine ⟨rfl, ?_, ?_, ?_, ?_⟩ <;> decide +kernel
  have hreg : registerHandlers (.new ⟨1, 1, by decide⟩)
      [⟨"/a/b", .normalRpc, 1⟩, ⟨"/a/c", .serverStreaming, 2⟩] = registerHandlers _ [] :=
    (registerHandlers_accepted hb.parse _ _).trans (registerHandlers_accepted hc.parse _ _)
  refine ⟨_, hreg, ?_⟩
  have hown := (parseMethodFullName_exact_iff "/a/b" _ _ _).2.2 hreg (by decide +kernel) (by
    rintro handler hmem hgo
    simp only [List.mem_cons, List.not_mem_nil, or_false] at hmem
    obtain rfl | rfl := hmem
    · exact hgo.not_documented _ hb
    · exact hgo.not_documented _ hc)
  exact ⟨hown _ (.head _), hown _ (.tail _ (.head _))⟩

/-- The name `/a/b/c` goes on after `/a/b`: it is accepted under the key of `/a/b`, and a
handler registered with it second is dropped. -/
theorem third_slash_collides :
    ¬ ParsedExactly "/a/b/c" ∧
    parseMethodFullName "/a/b" = .ok ("a", "b") ∧
    parseMethodFullName "/a/b/c" = .ok ("a", "b") ∧
    ∃ b, registerHandlers (.new ⟨1, 1, by decide⟩)
        [⟨"/a/b", .normalRpc, 1⟩, ⟨"/a/b/c", .normalRpc, 2⟩] = .ok b ∧
      b.handlerInfo ("a", "b") = some ⟨1, .normalRpc, "/a/b"⟩ := by
  have hab : parseMethodFullName "/a/b" = .ok ("a", "b") := by decide +kernel
  have habc : parseMethodFullName "/a/b/c" = .ok ("a", "b") := by decide +kernel
  refine ⟨?_, hab, habc, ?_⟩
  · rw [parsedExactly_iff, not_not]
    refine ⟨"/a/b", ("a", "b"), "c", ⟨rfl, ?_, ?_, ?_, ?_⟩, rfl⟩ <;> decide +kernel
  · refine ⟨((Builder.new ⟨1, 1, by decide⟩).emplace ("a", "b") ⟨1, .normalRpc, "/a/b"⟩).emplace
      ("a", "b") ⟨2, .normalRpc, "/a/b/c"⟩, ?_, ?_⟩
    · rw [registerHandlers_accepted hab, registerHandlers_accepted habc]
      rfl
    · rw [handlerInfo_emplace, handlerInfo_emplace, handlerInfo_new]
      rfl

end AsyncGrpc.Proofs
