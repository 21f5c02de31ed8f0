import NoteTemplate.CommandLine.World
import NoteTemplate.Values.Table
import NoteTemplate.Main
import NoteTemplate.Proofs.Template.Search
import NoteTemplate.Proofs.Template.Tree
import NoteTemplate.Proofs.Template.Reading
import NoteTemplate.Proofs.Answers.ItemCount
import NoteTemplate.Proofs.OrderedMap
import NoteTemplate.Proofs.Template.Evaluation
import NoteTemplate.Proofs.Interview.Choices
import NoteTemplate.Proofs.Json.Printing
import NoteTemplate.Proofs.Answers.Same
import NoteTemplate.Proofs.Json.Order
import NoteTemplate.Proofs.Answers.RoundTrip
import NoteTemplate.Proofs.Template.Splitting
import NoteTemplate.Proofs.Rendering.Characters
import NoteTemplate.Proofs.Rendering.Insertion
import NoteTemplate.Proofs.Interview.Items
import NoteTemplate.Proofs.Interview.Questions
import NoteTemplate.Proofs.Rendering.Footprint
import NoteTemplate.Proofs.Template.Extraction
import NoteTemplate.Proofs.FileTree
import NoteTemplate.Proofs.CommandLine.Effects
import NoteTemplate.Proofs.Template.Labels
import NoteTemplate.Proofs.Rendering.Substitution
import NoteTemplate.Proofs.Rendering.SharedLabels
import NoteTemplate.Proofs.Answers.Reading
import NoteTemplate.Proofs.Template.Warnings
import NoteTemplate.Proofs.Template.Joining
import NoteTemplate.Proofs.Catalog.Merging
import NoteTemplate.Proofs.Catalog.RoundTrip
import NoteTemplate.Proofs.Answers.Offers
import NoteTemplate.Proofs.Answers.View
import NoteTemplate.Proofs.Template.Names
