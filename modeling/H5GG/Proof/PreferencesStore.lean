import H5GG.PreferencesStore
import H5GG.Library.Machine
import H5GG.Library.Table
import Mathlib.Data.List.Nodup

/-!
# Preferences over whole runs
-/

namespace H5GG

/-! ## What is written is read back -/

theorem Bookmark.ofPlist_plist (bookmark : Bookmark) :
    Bookmark.ofPlist? bookmark.plist = some bookmark := by
  rfl

theorem SearchRecord.ofPlist_plist (entry : SearchRecord) :
    SearchRecord.ofPlist? entry.plist = some entry := by
  rfl

theorem take_of_limit {Value : Type*} (limit : Nat) (values : List Value) :
    (if limit < values.length then values.take limit else values) = values.take limit := by
  split
  · rfl
  · rename_i within
    exact (List.take_of_length_le (Nat.le_of_not_lt within)).symm

namespace NSUserDefaults
variable (defaults : NSUserDefaults)

/-- The preferences that the getters show. -/
def preferences : Preferences :=
  ⟨defaults.inputHistory, defaults.bookmarks, defaults.searchHistory⟩

theorem arrayForKey_setObject (key : Utf16) (items : List Plist) :
    (defaults.setObject key (some (.array items))).arrayForKey key = items := by
  simp [arrayForKey, setObject]

theorem arrayForKey_removeObject (key : Utf16) :
    (defaults.setObject key none).arrayForKey key = [] := by
  simp [arrayForKey, setObject]

theorem arrayForKey_other {key other : Utf16} (value : Option Plist) (apart : other ≠ key) :
    (defaults.setObject key value).arrayForKey other = defaults.arrayForKey other := by
  simp [arrayForKey, setObject, apart]

theorem objects_setObject {key other : Utf16} (value : Option Plist) (apart : other ≠ key) :
    (defaults.setObject key value).objects other = defaults.objects other :=
  if_neg apart

theorem keys_apart : inputHistoryKey ≠ bookmarksKey ∧ inputHistoryKey ≠ searchHistoryKey ∧
    bookmarksKey ≠ searchHistoryKey := by
  decide

theorem preferences_inputs (value : Option Plist) {history : List Utf16}
    (read : (defaults.setObject inputHistoryKey value).inputHistory = history) :
    (defaults.setObject inputHistoryKey value).preferences =
      { defaults.preferences with inputs := history } := by
  obtain ⟨first, second, -⟩ := keys_apart
  simp only [preferences, read, bookmarks, searchHistory, arrayForKey_other _ _ first.symm,
    arrayForKey_other _ _ second.symm]

theorem preferences_bookmarks (value : Option Plist) {stored : List Bookmark}
    (read : (defaults.setObject bookmarksKey value).bookmarks = stored) :
    (defaults.setObject bookmarksKey value).preferences =
      { defaults.preferences with bookmarks := stored } := by
  obtain ⟨first, -, third⟩ := keys_apart
  simp only [preferences, read, inputHistory, searchHistory, arrayForKey_other _ _ first,
    arrayForKey_other _ _ third.symm]

theorem preferences_searches (value : Option Plist) {history : List SearchRecord}
    (read : (defaults.setObject searchHistoryKey value).searchHistory = history) :
    (defaults.setObject searchHistoryKey value).preferences =
      { defaults.preferences with searches := history } := by
  obtain ⟨-, second, third⟩ := keys_apart
  simp only [preferences, read, inputHistory, bookmarks, arrayForKey_other _ _ second,
    arrayForKey_other _ _ third]

theorem array_written {Value : Type} (plist : Value → Plist) {ofPlist? : Plist → Option Value}
    (trip : ∀ value, ofPlist? (plist value) = some value) (key : Utf16) (values : List Value) :
    ((defaults.setObject key (some (.array (values.map plist)))).arrayForKey key).filterMap
      ofPlist? = values := by
  have identity : ofPlist? ∘ plist = some := funext trip
  rw [arrayForKey_setObject, List.filterMap_map, identity]
  exact List.filterMap_some

theorem inputHistory_written (history : List Utf16) :
    (defaults.setObject inputHistoryKey (some (.array (history.map .string)))).inputHistory =
      history :=
  defaults.array_written Plist.string (fun _ => rfl) inputHistoryKey history

theorem bookmarks_written (stored : List Bookmark) :
    (defaults.setObject bookmarksKey (some (.array (stored.map Bookmark.plist)))).bookmarks =
      stored :=
  defaults.array_written Bookmark.plist Bookmark.ofPlist_plist bookmarksKey stored

theorem searchHistory_written (history : List SearchRecord) :
    (defaults.setObject searchHistoryKey
      (some (.array (history.map SearchRecord.plist)))).searchHistory = history :=
  defaults.array_written SearchRecord.plist SearchRecord.ofPlist_plist searchHistoryKey history

/-- One call: its reply, what the getters show behind it, and the other keys. -/
structure Refines (call : PreferencesCall) : Prop where
  reply : (defaults.perform call).1 = defaults.preferences.reply call
  after : (defaults.perform call).2.preferences = defaults.preferences.after call
  others : ∀ key, key ≠ inputHistoryKey → key ≠ bookmarksKey → key ≠ searchHistoryKey →
    (defaults.perform call).2.objects key = defaults.objects key

theorem addInputHistoryValue_refines (value : Option Utf16) :
    defaults.Refines (.addInputHistory value) := by
  match value with
  | none => exact ⟨rfl, rfl, fun _ _ _ _ => rfl⟩
  | some [] => exact ⟨rfl, rfl, fun _ _ _ _ => rfl⟩
  | some (unit :: text) =>
      refine ⟨rfl, ?_, fun key apart _ _ => ?_⟩
      · have inputs : defaults.preferences.inputs = defaults.inputHistory := rfl
        simp only [perform, addInputHistoryValue, take_of_limit, Preferences.after, Recent.pushNew,
          inputs]
        split
        · rfl
        · exact defaults.preferences_inputs _ (defaults.inputHistory_written _)
      · simp only [perform, addInputHistoryValue]
        split
        · rfl
        · exact defaults.objects_setObject _ apart

theorem addBookmark_refines (address name type : Option Utf16) :
    defaults.Refines (.addBookmark address name type) := by
  match address, name, type with
  | none, _, _ => exact ⟨rfl, rfl, fun _ _ _ _ => rfl⟩
  | some _, none, _ => exact ⟨rfl, rfl, fun _ _ _ _ => rfl⟩
  | some _, some _, none => exact ⟨rfl, rfl, fun _ _ _ _ => rfl⟩
  | some address, some name, some type =>
      have stored : defaults.preferences.bookmarks = defaults.bookmarks := rfl
      cases present : defaults.bookmarks.any (·.address == address) with
      | true =>
          have same : defaults.perform (.addBookmark (some address) (some name) (some type)) =
              (some false, defaults) := by
            simp only [perform, addBookmark, present, if_true]
          refine ⟨?_, ?_, fun _ _ _ _ => by rw [same]⟩
          · rw [same, Preferences.reply, stored, present]
            rfl
          · rw [same, Preferences.after, stored, present, if_pos rfl]
      | false =>
          have same : defaults.perform (.addBookmark (some address) (some name) (some type)) =
              (some true, defaults.setObject bookmarksKey (some (.array
                ((defaults.bookmarks ++ [{ address, name, type : Bookmark }]).map
                  Bookmark.plist)))) := by
            simp only [perform, addBookmark, present, Bool.false_eq_true, if_false]
          refine ⟨?_, ?_, fun _ _ apart _ => ?_⟩
          · rw [same, Preferences.reply, stored, present]
            rfl
          · rw [same, Preferences.after, stored, present, if_neg Bool.false_ne_true]
            exact defaults.preferences_bookmarks _ (defaults.bookmarks_written _)
          · rw [same]
            exact defaults.objects_setObject _ apart

theorem removeBookmark_refines (address : Option Utf16) :
    defaults.Refines (.removeBookmark address) := by
  cases address with
  | none => exact ⟨rfl, rfl, fun _ _ _ _ => rfl⟩
  | some address =>
      have stored : defaults.preferences.bookmarks = defaults.bookmarks := rfl
      cases found : defaults.bookmarks.findIdx? (·.address == address) with
      | none =>
          have same : defaults.perform (.removeBookmark (some address)) = (some false, defaults) := by
            simp only [perform, removeBookmark, found]
          have absent : defaults.bookmarks.any (·.address == address) = false := by
            rw [List.any_eq_false]
            intro bookmark among
            rw [List.findIdx?_eq_none_iff.mp found bookmark among]
            exact Bool.false_ne_true
          refine ⟨?_, ?_, fun _ _ _ _ => by rw [same]⟩
          · rw [same, Preferences.reply, stored, absent]
          · rw [same, Preferences.after, stored, List.eraseP_eq_eraseIdx, found]
            rfl
      | some index =>
          have same : defaults.perform (.removeBookmark (some address)) =
              (some true, defaults.setObject bookmarksKey
                (some (.array ((defaults.bookmarks.eraseIdx index).map Bookmark.plist)))) := by
            simp only [perform, removeBookmark, found]
          have present : defaults.bookmarks.any (·.address == address) = true := by
            obtain ⟨below, hit, -⟩ := List.findIdx?_eq_some_iff_getElem.mp found
            exact List.any_eq_true.mpr ⟨_, List.getElem_mem below, hit⟩
          refine ⟨?_, ?_, fun _ _ apart _ => ?_⟩
          · rw [same, Preferences.reply, stored, present]
          · rw [same, Preferences.after, stored, List.eraseP_eq_eraseIdx, found]
            exact defaults.preferences_bookmarks _ (defaults.bookmarks_written _)
          · rw [same]
            exact defaults.objects_setObject _ apart

theorem addSearchHistoryValue_refines (value type : Option Utf16) (count : Int) (time : Utf16) :
    defaults.Refines (.addSearchHistory value type count time) := by
  cases value with
  | none => exact ⟨rfl, rfl, fun _ _ _ _ => rfl⟩
  | some value =>
      refine ⟨rfl, ?_, fun key _ _ apart => defaults.objects_setObject _ apart⟩
      simp only [perform, addSearchHistoryValue, take_of_limit]
      exact defaults.preferences_searches _ (defaults.searchHistory_written _)

theorem perform_refines (call : PreferencesCall) : defaults.Refines call := by
  cases call with
  | addInputHistory value => exact defaults.addInputHistoryValue_refines value
  | addBookmark address name type => exact defaults.addBookmark_refines address name type
  | removeBookmark address => exact defaults.removeBookmark_refines address
  | addSearchHistory value type count time =>
      exact defaults.addSearchHistoryValue_refines value type count time
  | clearInputHistory =>
      refine ⟨rfl, ?_, fun _ apart _ _ => defaults.objects_setObject _ apart⟩
      apply defaults.preferences_inputs
      rw [inputHistory, arrayForKey_removeObject, List.filterMap_nil]
  | clearBookmarks =>
      refine ⟨rfl, ?_, fun _ _ apart _ => defaults.objects_setObject _ apart⟩
      apply defaults.preferences_bookmarks
      rw [bookmarks, arrayForKey_removeObject, List.filterMap_nil]
  | clearSearchHistory =>
      refine ⟨rfl, ?_, fun _ _ _ apart => defaults.objects_setObject _ apart⟩
      apply defaults.preferences_searches
      rw [searchHistory, arrayForKey_removeObject, List.filterMap_nil]

end NSUserDefaults

/-- The defaults behind a run of calls. -/
def defaultsAfter (calls : List PreferencesCall) (defaults : NSUserDefaults) : NSUserDefaults :=
  execute (fun call defaults => (defaults.perform call).2) calls defaults

def preferencesAfter (calls : List PreferencesCall) (preferences : Preferences) : Preferences :=
  execute (fun call preferences => preferences.after call) calls preferences

/-- The replies of a run. -/
def defaultsReplies (calls : List PreferencesCall) (defaults : NSUserDefaults) : List Bool :=
  emitted (fun call defaults => (defaults.perform call).2)
    (fun call defaults => (defaults.perform call).1.toList) calls defaults

def preferencesReplies (calls : List PreferencesCall) (preferences : Preferences) : List Bool :=
  emitted (fun call preferences => preferences.after call)
    (fun call preferences => (preferences.reply call).toList) calls preferences

/-- Whatever the defaults hold to begin with, the store answers and shows in any run what the
abstract preferences do, and leaves the other keys alone. -/
theorem preferences_refined (calls : List PreferencesCall) (defaults : NSUserDefaults) :
    defaultsReplies calls defaults = preferencesReplies calls defaults.preferences ∧
      (defaultsAfter calls defaults).preferences =
        preferencesAfter calls defaults.preferences ∧
      ∀ key, key ≠ inputHistoryKey → key ≠ bookmarksKey → key ≠ searchHistoryKey →
        (defaultsAfter calls defaults).objects key = defaults.objects key := by
  induction calls generalizing defaults with
  | nil => exact ⟨rfl, rfl, fun _ _ _ _ => rfl⟩
  | cons call rest ih =>
      obtain ⟨reply, after, others⟩ := defaults.perform_refines call
      obtain ⟨replies, last, kept⟩ := ih (defaults.perform call).2
      rw [after] at replies last
      refine ⟨?_, last, fun key one two three => ?_⟩
      · rw [defaultsReplies, emitted, preferencesReplies, emitted, reply]
        exact congrArg _ replies
      · exact (kept key one two three).trans (others key one two three)

/-! ## What a run from nothing leaves -/

def noteInput (added : List Utf16) : PreferencesCall → List Utf16
  | .addInputHistory (some (unit :: text)) => added ++ [unit :: text]
  | .clearInputHistory => []
  | _ => added

/-- The inputs added since they were last cleared. -/
def inputsSince (calls : List PreferencesCall) : List Utf16 := calls.foldl noteInput []

def noteSearch (added : List SearchRecord) : PreferencesCall → List SearchRecord
  | .addSearchHistory (some value) type count time =>
      added ++ [⟨value, type.getD [], .integer count, time⟩]
  | .clearSearchHistory => []
  | _ => added

def searchesSince (calls : List PreferencesCall) : List SearchRecord := calls.foldl noteSearch []

def noteBookmark (address : Utf16) (held : Option Bookmark) : PreferencesCall → Option Bookmark
  | .addBookmark (some other) (some name) (some type) =>
      if other = address then held.or (some ⟨other, name, type⟩) else held
  | .removeBookmark (some other) => if other = address then none else held
  | .clearBookmarks => none
  | _ => held

/-- The bookmark of an address: the first that was added since it was last removed. -/
def bookmarkSince (address : Utf16) (calls : List PreferencesCall) : Option Bookmark :=
  calls.foldl (noteBookmark address) none

namespace Preferences
variable (preferences : Preferences)

/-- The preferences as what has been noted of the calls so far. -/
structure Noted (inputs : List Utf16) (searches : List SearchRecord)
    (held : Utf16 → Option Bookmark) : Prop where
  inputs : preferences.inputs = inputs.foldl (Recent.pushNew maximumInputHistory) []
  searches : preferences.searches = searches.foldl (Recent.push maximumSearchHistory) []
  bookmarks : ∀ address, preferences.bookmarks.find? (·.address == address) = held address
  apart : (preferences.bookmarks.map Bookmark.address).Nodup

variable {preferences} {inputs : List Utf16} {searches : List SearchRecord}
  {held : Utf16 → Option Bookmark}

theorem Noted.after (noted : preferences.Noted inputs searches held) (call : PreferencesCall) :
    (preferences.after call).Noted (noteInput inputs call) (noteSearch searches call)
      fun address => noteBookmark address (held address) call := by
  cases call with
  | addInputHistory value =>
      match value with
      | none => exact noted
      | some [] => exact noted
      | some (unit :: text) =>
          refine ⟨?_, noted.searches, noted.bookmarks, noted.apart⟩
          rw [noteInput, List.foldl_append, ← noted.inputs]
          rfl
  | clearInputHistory => exact ⟨rfl, noted.searches, noted.bookmarks, noted.apart⟩
  | addSearchHistory value type count time =>
      cases value with
      | none => exact noted
      | some value =>
          refine ⟨noted.inputs, ?_, noted.bookmarks, noted.apart⟩
          rw [noteSearch, List.foldl_append, ← noted.searches]
          rfl
  | clearSearchHistory => exact ⟨noted.inputs, rfl, noted.bookmarks, noted.apart⟩
  | clearBookmarks => exact ⟨noted.inputs, noted.searches, fun _ => rfl, .nil⟩
  | addBookmark address name type =>
      match address, name, type with
      | none, _, _ => exact noted
      | some _, none, _ => exact noted
      | some _, some _, none => exact noted
      | some address, some name, some type =>
          rw [Preferences.after]
          split
          · rename_i present
            refine ⟨noted.inputs, noted.searches, fun other => ?_, noted.apart⟩
            simp only [noteBookmark]
            split
            · rename_i same
              subst same
              obtain ⟨bookmark, found⟩ := Option.isSome_iff_exists.mp
                (List.find?_isSome.mpr (List.any_eq_true.mp present))
              rw [noted.bookmarks] at found
              rw [noted.bookmarks, found]
              rfl
            · exact noted.bookmarks other
          · rename_i absent
            have absent : ∀ bookmark ∈ preferences.bookmarks, bookmark.address ≠ address := by
              simpa using absent
            refine ⟨noted.inputs, noted.searches, fun other => ?_, ?_⟩
            · simp only [noteBookmark, List.find?_append, noted.bookmarks]
              split
              · rename_i same
                simp [same]
              · rename_i differ
                simp [differ]
            · rw [List.map_append, List.nodup_append]
              refine ⟨noted.apart, List.nodup_singleton _, fun old kept new only same => ?_⟩
              obtain ⟨bookmark, among, rfl⟩ := List.mem_map.mp kept
              rw [List.map_singleton, List.mem_singleton] at only
              exact absent bookmark among (same.trans only)
  | removeBookmark address =>
      cases address with
      | none => exact noted
      | some address =>
          refine ⟨noted.inputs, noted.searches, fun other => ?_, ?_⟩
          · rw [Preferences.after, noteBookmark, ← noted.bookmarks other]
            exact find?_eraseP_of_nodup_map noted.apart address other
          · exact noted.apart.sublist (List.eraseP_sublist.map _)

theorem noted_run (calls : List PreferencesCall) : (preferencesAfter calls {}).Noted
    (inputsSince calls) (searchesSince calls) fun address => bookmarkSince address calls := by
  induction calls using List.reverseRecOn with
  | nil => exact ⟨rfl, rfl, fun _ => rfl, .nil⟩
  | append_singleton earlier call ih =>
      have next := ih.after call
      simp only [preferencesAfter, inputsSince, searchesSince, bookmarkSince, execute_append,
        List.foldl_append] at next ⊢
      exact next

end Preferences

/-- What the store shows behind a run that began without any of its values: the last inputs
without immediate repeats, the last searches, and one bookmark for each address. -/
structure ShowsRecent (calls : List PreferencesCall) (defaults : NSUserDefaults) : Prop where
  inputs : defaults.inputHistory =
    (Recent.collapse (inputsSince calls).reverse).take maximumInputHistory
  inputsApart : defaults.inputHistory.IsChain (· ≠ ·)
  searches : defaults.searchHistory = (searchesSince calls).reverse.take maximumSearchHistory
  bookmarks : ∀ address,
    defaults.bookmarks.find? (·.address == address) = bookmarkSince address calls
  addresses : (defaults.bookmarks.map Bookmark.address).Nodup

theorem preferences_recent (calls : List PreferencesCall) (defaults : NSUserDefaults)
    (empty : defaults.preferences = {}) : ShowsRecent calls (defaultsAfter calls defaults) := by
  obtain ⟨-, shown, -⟩ := preferences_refined calls defaults
  rw [empty] at shown
  obtain ⟨inputs, searches, bookmarks, addresses⟩ := Preferences.noted_run calls
  rw [← shown] at inputs searches bookmarks addresses
  rw [Recent.foldl_pushNew (by decide)] at inputs
  rw [Recent.foldl_push] at searches
  refine ⟨inputs, ?_, searches, bookmarks, addresses⟩
  have shown : (defaultsAfter calls defaults).inputHistory =
      (Recent.collapse (inputsSince calls).reverse).take maximumInputHistory := inputs
  rw [shown]
  exact (Recent.collapse_isChain _).take maximumInputHistory

theorem preferences_recent_fresh :
    ShowsRecent [.addInputHistory (some (utf16 "7")), .addBookmark (some (utf16 "0x1")) (some [])
      (some []), .addInputHistory (some (utf16 "7"))]
      (defaultsAfter [.addInputHistory (some (utf16 "7")), .addBookmark (some (utf16 "0x1"))
        (some []) (some []), .addInputHistory (some (utf16 "7"))] ⟨fun _ => none⟩) :=
  preferences_recent _ ⟨fun _ => none⟩ rfl

end H5GG
