import NoteTemplate.Catalog.Basic

/-!
# The templates that come with the program
-/

namespace NoteTemplate.Catalog

def actionItem : TemplateEntry where
  name := "Action Item".toList
  subjectPrefix := none
  source :=
    ("<b>Action item(s)</b><br><ul>\x7b\x7brepeat:Action Items\x7d\x7d<li>[Action item]" ++
      "</li>\x7b\x7b/repeat\x7d\x7d</ul>\x7b\x7boptional:a\x7d\x7d<b>Next steps</b><br>" ++
      "<ul>\x7b\x7brepeat:Next Steps\x7d\x7d<li>[Next step]</li>\x7b\x7b/repeat\x7d\x7d" ++
      "</ul>\x7b\x7b/optional\x7d\x7d").toList

def quoteBlock : TemplateEntry where
  name := "Quote Block".toList
  subjectPrefix := none
  source :=
    ("\x7b\x7boptional:a\x7d\x7d[Pre Quote]:<br><br>\x7b\x7b/optional\x7d\x7d" ++
      "<i style=\"color: gray; font-style: italic;\">[quote]</i><br>" ++
      "\x7b\x7boptional:b\x7d\x7d<br>[Post Quote]<br>\x7b\x7b/optional\x7d\x7d").toList

def qaResponse : TemplateEntry where
  name := "QA Response".toList
  subjectPrefix := none
  source :=
    ("\x7b\x7brepeat:Note\x7d\x7d<i style=\"color: gray;\">[QA Note]</i><br>" ++
      "<br>\x7bResponse\x7d<br><br>\x7b\x7b/repeat\x7d\x7d").toList

def communicationTemplate : TemplateEntry where
  name := "Communication".toList
  subjectPrefix := none
  source :=
    ("<i>[description]</i><br>\x7b\x7boptional:b\x7d\x7d<br><b>Topics discussed</b><ul>" ++
      "\x7b\x7brepeat:Topics Discussed\x7d\x7d<li>[Topic]</li>\x7b\x7b/repeat\x7d\x7d" ++
      "</ul>\x7b\x7b/optional\x7d\x7d\x7b\x7boptional:a\x7d\x7d<b>Follow up needed</b>" ++
      "<br><ul>\x7b\x7brepeat:Follow ups needed\x7d\x7d<li>[Follow up]</li>" ++
      "\x7b\x7b/repeat\x7d\x7d</ul>\x7b\x7b/optional\x7d\x7d").toList

def emailTemplate : TemplateEntry where
  name := "Email".toList
  subjectPrefix := none
  source :=
    ("<table><tbody><tr><td><b>from:</b></td><td>[from]</td></tr><tr><td><b>to:</b></td>" ++
      "<td>[to]</td></tr>\x7b\x7boptional:b\x7d\x7d<tr><td><b>cc:</b></td><td>[cc]</td>" ++
      "</tr>\x7b\x7b/optional\x7d\x7d\x7b\x7boptional:c\x7d\x7d<tr><td><b>sent:</b></td>" ++
      "<td>[sent]</td></tr>\x7b\x7b/optional\x7d\x7d\x7b\x7boptional:a\x7d\x7d<tr><td>" ++
      "<b>subject:</b></td><td>[subject]</td></tr>\x7b\x7b/optional\x7d\x7d</tbody>" ++
      "</table><br>[body]").toList

def invoiceUpdate : TemplateEntry where
  name := "Invoice Updated".toList
  subjectPrefix := some "Invoice Updated".toList
  source :=
    ("<ul><li><b>Invoice amount updated to [New Invoice Amount]</b></li>" ++
      "\x7b\x7boptional:a\x7d\x7d\x7b\x7brepeat:Notes\x7d\x7d<li>[Note]</li>" ++
      "\x7b\x7b/repeat\x7d\x7d\x7b\x7b/optional\x7d\x7d</ul>\x7b\x7boptional:1\x7d\x7d" ++
      "<div><b>Scope Updates</b></div><ul>\x7b\x7brepeat:Scope Updates\x7d\x7d" ++
      "<li>[Scope Change]</li>\x7b\x7b/repeat\x7d\x7d</ul>\x7b\x7b/optional\x7d\x7d").toList

def initialReport : TemplateEntry where
  name := "Initial Report".toList
  subjectPrefix := some "Initial Report".toList
  source :=
    ("<i>[Narrative]</i><br><br>\x7b\x7boptional:a\x7d\x7d<b>Initial Observations</b>" ++
      "<br><ul>\x7b\x7brepeat:Observations\x7d\x7d<li>[observation]</li>" ++
      "\x7b\x7b/repeat\x7d\x7d</ul>\x7b\x7b/optional\x7d\x7d\x7b\x7boptional:b\x7d\x7d" ++
      "<b>Initial Scope</b><br><ul>\x7b\x7brepeat:Scope Items\x7d\x7d<li>[scope item]" ++
      "</li>\x7b\x7b/repeat\x7d\x7d</ul>\x7b\x7b/optional\x7d\x7d").toList

def statusUpdate : TemplateEntry where
  name := "Status Update".toList
  subjectPrefix := some "Project Status".toList
  source :=
    ("<b>Weekly Project Update [Date]</b><br>\x7b\x7boptional:b\x7d\x7d<br>" ++
      "<b>This Week’s Activities:</b><br><ul>" ++
      "\x7b\x7brepeat:This week's activities\x7d\x7d<li>[This Week's Activity]</li>" ++
      "\x7b\x7b/repeat\x7d\x7d</ul>\x7b\x7b/optional\x7d\x7d\x7b\x7boptional:c\x7d\x7d" ++
      "<br><b>Activities for Next Week:</b><ul>" ++
      "\x7b\x7brepeat:Next week's activities\x7d\x7d<li>[Next Week's Activity]</li>" ++
      "\x7b\x7b/repeat\x7d\x7d</ul>\x7b\x7b/optional\x7d\x7d\x7b\x7boptional:a\x7d\x7d" ++
      "<br><b>Issues/Risks:</b><ul>\x7b\x7brepeat:Issues/Risks\x7d\x7d<li>[Issue]</li>" ++
      "\x7b\x7b/repeat\x7d\x7d</ul>\x7b\x7b/optional\x7d\x7d").toList

def siteVisit : TemplateEntry where
  name := "Site Visit".toList
  subjectPrefix := some "Site Visit".toList
  source :=
    ("<b>Site Visit Report</b><br><b>Purpose:</b> [Purpose of Visit]" ++
      "\x7b\x7boptional:a\x7d\x7d<br><br><b>Observations:</b><br><ul>" ++
      "\x7b\x7brepeat:Observations\x7d\x7d<li>[Observation Detail]</li>" ++
      "\x7b\x7b/repeat\x7d\x7d</ul>\x7b\x7b/optional\x7d\x7d").toList

/-- The templates that come with the program. -/
def builtin : Catalog :=
  ofList
    [("action-item".toList, actionItem),
      ("quote-block".toList, quoteBlock),
      ("qa-response".toList, qaResponse),
      ("communication-template".toList, communicationTemplate),
      ("email-template".toList, emailTemplate),
      ("invoice-update".toList, invoiceUpdate),
      ("initial-report".toList, initialReport),
      ("status-update".toList, statusUpdate),
      ("site-visit".toList, siteVisit)]

end NoteTemplate.Catalog
