import ExternalTable.Proofs.WrittenJson
import ExternalTable.Source.Config

/-!
# The display of a configuration

What is shown of a configuration is itself a configuration document.  It reads back with the mask in
place of the password, and tells nothing about the password, not even whether there is one.

* `Config.display_eq`: the text that is shown, setting by setting;
* `Config.shownSettings`, `Config.settings?_display`: the settings that it is read as;
* `ofJson_display`: the main statement.
-/

namespace ExternalTable.Config

open Json

/-- What is shown under each name, in the order of the names.  The password is not among it. -/
def shownSettings (c : Config) : List (String × String) :=
  [("jdbc_url", c.url), ("password", maskText), ("table", c.table), ("user", c.user)]

theorem display_eq (c : Config) :
    c.display = writeObject (c.shownSettings.map fun s => (s.1, quote s.2.toList)) :=
  rfl

/-- The display is read as an object of texts. -/
theorem read?_display (c : Config) :
    Raw.read? c.display =
      some (.object
        (c.shownSettings.map fun s => (pieces s.1.toList, .text (pieces s.2.toList)))) := by
  have hwrites := writes_object
    (c.shownSettings.map fun s => (s.1, quote s.2.toList, Raw.text (pieces s.2.toList)))
    (List.forall_mem_map.2 fun s _ => writes_quote s.2.toList)
  rw [display_eq]
  simpa only [List.map_map, Function.comp_def] using hwrites.read?_eq

/-- A field of the display has the text that is shown under its name. -/
theorem member?_display (c : Config) (field text : String)
    (h : (c.shownSettings.filter fun s => s.1 = field) = [(field, text)]) :
    Record.member? (c.shownSettings.map fun s => (pieces s.1.toList, .text (pieces s.2.toList)))
      field = some (some (.text (pieces text.toList))) := by
  have hmembers := membersOf?_written field
    (c.shownSettings.map fun s => (s.1, Raw.text (pieces s.2.toList)))
  simp only [List.map_map, List.filter_map, Function.comp_def, h] at hmembers
  rw [Record.member?, hmembers]
  rfl

theorem fields?_display (c : Config) :
    Record.fields? fieldNames true
        (.object (c.shownSettings.map fun s => (pieces s.1.toList, .text (pieces s.2.toList)))) =
      some ([c.url, c.user, maskText, c.table].map fun s => some (.text (pieces s.toList))) := by
  have hurl := c.member?_display "jdbc_url" c.url (by simp [shownSettings])
  have huser := c.member?_display "user" c.user (by simp [shownSettings])
  have hpassword := c.member?_display "password" maskText (by simp [shownSettings])
  have htable := c.member?_display "table" c.table (by simp [shownSettings])
  simp only [Record.fields?, fieldNames, List.mapM_cons, hurl, huser, hpassword, htable]
  rfl

theorem settings?_display (c : Config) :
    settings? c.display = some [some c.url, some c.user, some maskText, some c.table] := by
  rw [settings?, read?_display]
  simp only [fields?_display]
  simp [Record.withDefault?, Record.optionalText?, Record.text?]

/-- **The display is a faithful document that hides the password.**  It is a document of the same
configuration with four asterisks as the password, and two configurations have the same display
exactly if they agree in everything but the password. -/
theorem ofJson_display (c : Config) :
    ofJson (String.ofList c.display) = .ok { c with password := some "****" } ∧
      ∀ c' : Config, c'.display = c.display ↔
        c'.url = c.url ∧ c'.user = c.user ∧ c'.table = c.table := by
  have hread : ∀ c : Config,
      ofJson (String.ofList c.display) = .ok { c with password := some maskText } := by
    intro c
    rw [ofJson, String.toList_ofList, settings?_display]
    rfl
  refine ⟨hread c, fun c' => ⟨fun h => ?_, fun ⟨hurl, huser, htable⟩ => ?_⟩⟩
  · have hsame := hread c'
    rw [h, hread c, Except.ok.injEq, mk.injEq] at hsame
    exact ⟨hsame.1.symm, hsame.2.1.symm, hsame.2.2.2.symm⟩
  · rw [display_eq, display_eq, shownSettings, shownSettings, hurl, huser, htable]

/-- A control character, quotes and a backslash are escaped, and no password is shown as one. -/
example : Config.display ⟨"u\x01", "\"a\"", none, "\\"⟩ =
    ("\x7b\"jdbc_url\":\"u\\u0001\",\"password\":\"****\"," ++
      "\"table\":\"\\\\\",\"user\":\"\\\"a\\\"\"\x7d").toList := by
  decide

end ExternalTable.Config
